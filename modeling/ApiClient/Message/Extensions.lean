import ApiClient.Http.Uri

/-!
# ApiClient.Message.Extensions

Settings that travel with one request, and then with its response. Transports act on those they
know.
-/

namespace ApiClient

/-- What to do with a redirection. -/
inductive RedirectPolicy where
  /-- The redirection is the response. -/
  | none
  /-- Go where the redirection leads. -/
  | follow
  /-- Go where redirections lead, for a number of times. -/
  | limit (n : Nat)
deriving Repr, DecidableEq

/-- The policy in diagnostics. -/
def RedirectPolicy.debug : RedirectPolicy → String
  | none => "None"
  | follow => "Follow"
  | limit n => s!"Limit({n})"

/-- Settings of one request. Times are in milliseconds. -/
structure Extensions where
  /-- The time for the whole call. -/
  timeout : Option Nat := none
  /-- The time for making a connection. -/
  connectTimeout : Option Nat := none
  /-- A number of bytes per second, and how long a transfer may stay below it. -/
  lowSpeedTimeout : Option (Nat × Nat) := none
  /-- What to do with redirections. -/
  redirectPolicy : Option RedirectPolicy := none
  /-- Whether encoded bodies are decoded. -/
  decompression : Option Bool := none
  /-- Whether small packets are sent at once. -/
  tcpNodelay : Bool := false
  /-- The proxy, or that there is none. -/
  proxy : Option (Option Uri) := none
  /-- Whether header names are sent in title case. -/
  titleCaseHeaders : Option Bool := none
deriving Repr, DecidableEq

instance : Inhabited Extensions := ⟨{}⟩

end ApiClient

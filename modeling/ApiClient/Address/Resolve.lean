import ApiClient.Address.Template
import ApiClient.Http.Uri
import ApiClient.Url.Basic

/-!
# ApiClient.Address.Resolve

Turning a template or a relative target into the address of a request.

Design points:

* A target that starts with a scheme is used as it is. Any other target is put behind the path of
  the base address with exactly one slash between them; it never replaces a part of the base.
* A target that is empty or starts with a query or a fragment is put behind the base without a
  slash.
-/

namespace ApiClient

/-- Why a request has no address. -/
inductive AddressError where
  /-- The template has a brace without its partner. -/
  | unbalancedBraces (template : String)
  /-- The template has an expression without a name. -/
  | emptyVariableName (template : String)
  /-- There is no value for a variable. -/
  | missingVariable (name : String)
  /-- A relative target without a base address. -/
  | missingBaseUrl (target : String)
  /-- The address is no URI. -/
  | invalidUri (uri : String) (reason : UriError)
deriving Repr, DecidableEq

/-- The name of the error's case. -/
def AddressError.name : AddressError → String
  | unbalancedBraces _ => "UnbalancedBraces"
  | emptyVariableName _ => "EmptyVariableName"
  | missingVariable _ => "MissingVariable"
  | missingBaseUrl _ => "MissingBaseUrl"
  | invalidUri .. => "InvalidUri"

/-- The text of the error. -/
def AddressError.message : AddressError → String
  | .unbalancedBraces template => s!"Unbalanced braces in URI template \x60{template}\x60"
  | .emptyVariableName template => s!"Empty variable name in URI template \x60{template}\x60"
  | .missingVariable name => s!"No value given for URI template variable \x60{name}\x60"
  | .missingBaseUrl target =>
    s!"Relative URI \x60{target}\x60 can not be resolved without base URL"
  | .invalidUri uri reason => s!"Invalid URI \x60{uri}\x60: {reason.message}"

namespace Address

/-- The error for a fault of a template. -/
def faultOf (template : String) : TemplateFault → AddressError
  | .unbalancedBraces => .unbalancedBraces template
  | .emptyName => .emptyVariableName template
  | .missingValue name => .missingVariable name

/-- Replaces the expressions of a template by values. -/
def expand (template : String) (bindings : Variables) : Except AddressError String :=
  (Template.expand template bindings).mapError (faultOf template)

/-- The text in front of the first `://`. -/
def beforeSchemeMark? : List Char → Option (List Char)
  | [] => none
  | c :: rest =>
    if c = ':' ∧ rest.take 2 = ['/', '/'] then some []
    else (beforeSchemeMark? rest).map (c :: ·)

/-- A character that a scheme may start with. -/
def startsScheme (c : Char) : Bool := c.isAlpha

/-- A character of a scheme. -/
def isSchemeChar (c : Char) : Bool := c.isAlphanum || c == '+' || c == '-' || c == '.'

/-- Whether a target starts with a scheme. -/
def hasScheme (target : List Char) : Bool :=
  match beforeSchemeMark? target with
  | some scheme => scheme.head?.any startsScheme && scheme.all isSchemeChar
  | none => false

/-- A text without the slashes at its end. -/
def trimEnd (s : List Char) : List Char := (s.reverse.dropWhile (· = '/')).reverse

/-- Puts a relative target behind a base. -/
def join (base target : List Char) : List Char :=
  if target.isEmpty || target.head? == some '?' || target.head? == some '#' then base ++ target
  else trimEnd base ++ '/' :: target.dropWhile (· = '/')

/-- The absolute text of a target. -/
def absolute (base : Option Url) (target : String) : Except AddressError String :=
  if hasScheme target.toList then .ok target
  else match base with
    | some base => .ok (String.ofList (join base.text.toList target.toList))
    | none => .error (.missingBaseUrl target)

/-- The address that a target stands for. -/
def resolve (base : Option Url) (target : String) : Except AddressError Uri := do
  let text ← absolute base target
  (Uri.parse text).mapError (.invalidUri text)

end Address

end ApiClient

import ApiClient.Http.Uri
import ApiClient.Url.Parser

/-!
# ApiClient.Url.Join

Where a reference leads from an address.

Design points:

* A reference with a scheme of its own is an address by itself. Any other one takes from the base
  what it leaves out, from the scheme on.
* A path that does not start with a slash replaces the last segment of the base's path.
* A path without structure has no segments, so only a fragment can be put behind it.
-/

namespace ApiClient.Url

/-- The address that a reference without a scheme leads to. Two slashes introduce a host; where one
of them is a backslash, more of them may follow. -/
def joinRelative (base : Url) (s : List Char) : Except UrlError Url :=
  let special := isSpecialScheme base.scheme
  let tail := Tail.ofChars s
  if base.isFlat then
    if s.head? == some '#' then .ok { base with fragment := tail.fragmentText }
    else .error .relativeWithFlatBase
  else if base.scheme == "file" then readFile (some base) s
  else match tail.path with
    | [] =>
      let url := base.withTail tail
      .ok (if tail.query.isSome then url else { url with query := base.query })
    | a :: rest =>
      if isSlash special a then
        if rest.head?.any (isSlash special) then
          readAuthority base.scheme
            (if s.take 2 == ['/', '/'] then s.drop 2 else s.dropWhile (isSlash special))
        else .ok ({ base with path := readPath base.scheme rest }.withTail tail)
      else
        let segments := readSegments base.scheme base.directory tail.path
        .ok ({ base with path := pathText base.scheme segments }.withTail tail)

/-- The address that a reference leads to. -/
def join (base : Url) (reference : String) : Except UrlError Url :=
  match splitUrlScheme (clean reference) with
  | none => base.joinRelative (clean reference)
  | some (scheme, rest) =>
    let slashes := rest.length ≥ 2 && (rest.take 2).all (isSlash true)
    if scheme == base.scheme && scheme == "file" then readFile (some base) rest
    else if scheme == base.scheme && isSpecialScheme scheme && !slashes then base.joinRelative rest
    else readBehindScheme scheme rest

/-- The URL as the target of a request, if it can be one. -/
def toUri? (u : Url) : Option Uri := (Uri.parse u.text).toOption

end ApiClient.Url

import ApiClient.Url.Component

/-!
# ApiClient.Url.Path

Paths of URLs: segments between slashes.

Design points:

* A path is read segment by segment onto the segments before it, last segment first. A segment of
  one dot is dropped, and one of two dots drops the segment before it.
* A letter with a colon or a bar names a drive. No dots drop a segment that starts with a drive, in
  no scheme. In the scheme of files a drive that comes first is written with a colon.
* In the scheme of files a path does not start with empty segments.
-/

namespace ApiClient.Url

/-! ## Drives -/

/-- Whether a text names a drive: a letter and a colon or a bar. -/
def isDrive : List Char → Bool
  | [a, b] => a.isAlpha && (b == ':' || b == '|')
  | _ => false

/-- Whether a text starts with a drive that ends at a separator or with the text. -/
def startsWithDrive : List Char → Bool
  | a :: b :: rest => isDrive [a, b] && rest.head?.all ['/', '\x5c', '?', '#'].contains
  | _ => false

/-- Whether a segment is a drive in its normal form, with a colon. -/
def isNormalDrive (s : String) : Bool := isDrive s.toList && s.endsWith ":"

/-- A segment, in normal form if it is a drive. -/
def normalDrive (s : String) : String :=
  match s.toList with
  | [a, b] => if isDrive [a, b] then String.ofList [a, ':'] else s
  | _ => s

/-! ## Dots -/

/-- Whether a segment is a single dot, in any spelling. -/
def isDot (s : String) : Bool :=
  let lower := s.toLower
  lower == "." || lower == "%2e"

/-- Whether a segment is two dots, in any spelling. -/
def isDoubleDot (s : String) : Bool :=
  [("." ++ "."), ".%2e", "%2e.", "%2e%2e"].contains s.toLower

/-- The segments above a place in a path, last segment first. -/
def above : List String → List String
  | [] => []
  | s :: rest => if startsWithDrive s.toList then s :: rest else rest

/-- A segment as it is kept behind those before it, last segment first. -/
def keptSegment (drives : Bool) (done : List String) (s : String) : String :=
  if drives && done.isEmpty then normalDrive s else s

/-- Adds segments to a path, last segment first. Two dots go up to the segments `up` of those before
them, and any other segment is kept as `keep` writes it behind them. Dots at the end leave an empty
segment. -/
def addSegments (up : List String → List String) (keep : List String → String → String) :
    List String → List String → List String
  | done, [] => done
  | done, s :: rest =>
    let close (done : List String) : List String := if rest.isEmpty then "" :: done else done
    if isDoubleDot s then addSegments up keep (close (up done)) rest
    else if isDot s then addSegments up keep (close done) rest
    else addSegments up keep (keep done s :: done) rest

/-! ## Reading and writing -/

/-- Cuts a path into segments at its slashes. -/
def cutSegments (special : Bool) (path : List Char) : List (List Char) :=
  Pieces.cut '/' (if special then path.map fun c => if c == '\x5c' then '/' else c else path)

/-- The segments of a path in normal form, from those that stand before it, last segment first, and
its text behind a slash. -/
def readSegments (scheme : String) (done : List String) (path : List Char) : List String :=
  let encoded := (cutSegments (isSpecialScheme scheme) path).map (encodeChars keepsInPath)
  (addSegments above (keptSegment (scheme == "file")) done encoded).reverse

/-- The text of a path. -/
def pathText (scheme : String) (segments : List String) : String :=
  "/" ++ "/".intercalate (if scheme == "file" then segments.dropWhile (·.isEmpty) else segments)

/-- A path in normal form, from its text behind the first slash. -/
def readPath (scheme : String) (path : List Char) : String :=
  pathText scheme (readSegments scheme [] path)

/-- The segments of a URL's path. -/
def segments (u : Url) : List String :=
  if u.path.isEmpty then []
  else (Pieces.cut '/' (u.path.toList.drop 1)).map String.ofList

/-- The segments of the directory of a URL's path, last segment first. In the scheme of files a
drive is its own directory. -/
def directory (u : Url) : List String :=
  match u.segments.reverse with
  | [] => []
  | s :: rest => if u.scheme == "file" && isNormalDrive s then s :: rest else rest

end ApiClient.Url

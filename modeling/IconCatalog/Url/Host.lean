import IconCatalog.Command.Init
import IconCatalog.Url.Address
import IconCatalog.Url.Label
/-!
A reader of web addresses, for the tool on a machine. It gives the host in its normal form. Names
are in lower case with percent escapes read, and labels outside ASCII are spelled in it; addresses
are written in one way each. A name with characters that would be changed or dropped on the way,
other than capital letters of ASCII, is refused here.
-/
namespace IconCatalog.Url
open Text

/-- The bytes of a text with percent escapes read; a percent sign without two hexadecimal digits
stands for itself. -/
def unescape : Text → List UInt8
  | [] => []
  | '%' :: a :: b :: t =>
    match valueIn? 16 [a, b] with
    | some n => n.toUInt8 :: unescape t
    | none => String.utf8EncodeChar '%' ++ unescape (a :: b :: t)
  | c :: t => String.utf8EncodeChar c ++ unescape t
  termination_by t => t.length

def isForbidden (c : Char) : Bool :=
  c.toNat ≤ 0x20 || c.toNat = 0x7F || "%#/:<>?@[\\]^|".toList.contains c

def name? (t : Text) : Option Text := do
  let host := (← String.fromUTF8? ⟨(unescape t).toArray⟩).toList.map Char.toLower
  let labels := host.splitOn '.'
  if host = [] || host.any isForbidden || !Label.areValid labels then none
  else
    let spelled := joined ".".toList (labels.map Label.spell)
    if Address4.isRequired spelled then (Address4.read? spelled).map Address4.render
    else some spelled

def bracketed? : Text → Option Text
  | '[' :: t => some t
  | _ => none

def host? (t : Text) : Option Text :=
  match bracketed? t with
  | none => name? t
  | some inner =>
    if inner.getLast? = some ']' then
      (Address6.read? inner.dropLast).map fun groups =>
        "[".toList ++ Address6.render groups ++ "]".toList
    else none

def cleaned (t : Text) : Text :=
  let isEdge (c : Char) : Bool := c.toNat ≤ 0x20
  (dropEndWhile isEdge (t.dropWhile isEdge)).filter fun c => c ≠ '\t' && c ≠ '\n' && c ≠ '\r'

def scheme? (t : Text) : Option (Text × Text) :=
  let isSchemeChar (c : Char) : Bool := c.isAlphanum || c = '+' || c = '-' || c = '.'
  match t.dropWhile isSchemeChar with
  | ':' :: rest =>
    let scheme := t.takeWhile isSchemeChar
    if scheme.head?.any Char.isAlpha then some (scheme.map Char.toLower, rest) else none
  | _ => none

def isSlash (c : Char) : Bool := c = '/' || c = '\\'

def authority (t : Text) : Text :=
  (t.dropWhile isSlash).takeWhile fun c => !(isSlash c || c = '?' || c = '#')

def afterUser (t : Text) : Text := (t.reverse.takeWhile (· ≠ '@')).reverse

def splitService (inBrackets : Bool) : Text → Text × Option Text
  | [] => ([], none)
  | c :: t =>
    if c = ':' && !inBrackets then ([], some t)
    else
      let (host, service) := splitService ((inBrackets || c = '[') && c ≠ ']') t
      (c :: host, service)

def isServiceNumber (t : Text) : Bool := (valueIn? 10 t).any (· ≤ 65535)

/-- Reads a web address. Of addresses with other schemes only the scheme is told. -/
def read? : WebAddress.Reader := fun address => do
  let (scheme, rest) ← scheme? (cleaned address)
  if scheme = "http".toList || scheme = "https".toList then
    let (host, service) := splitService false (afterUser (authority rest))
    if service.all isServiceNumber then (host? host).map fun host => ⟨scheme, some host⟩ else none
  else some ⟨scheme, none⟩

end IconCatalog.Url

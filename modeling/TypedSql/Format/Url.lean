import TypedSql.Network.Address
import TypedSql.Text.Classes

/-!
# Format of URLs

A URL has a scheme and, behind it, an authority or a path. An authority with brackets has to hold an
address between them, and no character of it may expand to a mark that ends or divides authorities.
-/

namespace TypedSql.Format.Url

open TypedSql.Text TypedSql.Network

/-- Whether a character may stand in a scheme. -/
def isSchemeChar (c : Char) : Bool :=
  isAsciiLetter c || isAsciiDigit c || c = '+' || c = '-' || c = '.'

/-- The parts of a text before and after the first occurrence of a character. -/
def cut (mark : Char) (text : List Char) : List Char × Option (List Char) :=
  match text.dropWhile (· ≠ mark) with
  | [] => (text, none)
  | _ :: rest => (text.takeWhile (· ≠ mark), some rest)

/-- The scheme in front of a text, in lower case, and the text behind its colon. -/
def scheme? (text : List Char) : Option (List Char × List Char) :=
  match cut ':' text with
  | (first :: more, some rest) =>
    if isAsciiLetter first && more.all isSchemeChar then
      some ((first :: more).map Char.toLower, rest)
    else none
  | _ => none

/-- The authority behind two slashes, and the text behind it; otherwise the authority is empty. -/
def authority : List Char → List Char × List Char
  | '/' :: '/' :: rest =>
    let isEnd (c : Char) : Bool := c = '/' || c = '?' || c = '#'
    (rest.takeWhile fun c => !isEnd c, rest.dropWhile fun c => !isEnd c)
  | rest => ([], rest)

/-- The text behind the last `@`. -/
def behindUser (authority : List Char) : List Char :=
  (authority.reverse.takeWhile (· ≠ '@')).reverse

/-- Whether a host in brackets is an address: a future one starts with `v`. -/
def isBracketedHost (host : List Char) : Bool :=
  match host with
  | 'v' :: rest =>
    let digits := rest.takeWhile isHexDigit
    match rest.dropWhile isHexDigit with
    | '.' :: more => !digits.isEmpty && !more.isEmpty
    | _ => false
  | _ => (Ipv6.read? host).isSome

/-- Whether the brackets of an authority stand around an address, with a colon or nothing behind
them. -/
def hasValidBrackets (authority : List Char) : Bool :=
  let opens := authority.contains '['
  let closes := authority.contains ']'
  if opens != closes then false
  else if !opens then true
  else
    match cut '[' (behindUser authority) with
    | ([], some bracketed) =>
      let (host, rest) := cut ']' bracketed
      isBracketedHost host && (rest.getD []).head?.all (· = ':')
    | (_, some _) => false
    | (rest, none) => isBracketedHost (cut ':' rest).1

/-- The characters that expand to text with a slash, a question mark, a number sign, an at sign or a
colon. -/
def expandingChars : CodeRanges :=
  CodeRanges.ofText "2047-2049 2100-2101 2105-2106 2a74 fe13 fe16 fe55-fe56 fe5f fe6b ff03 ff0f ff1a
    ff1f-ff20"

/-- The schemes whose last path segment may have parameters behind a semicolon. -/
def schemesWithParameters : List String :=
  ["ftp", "hdl", "prospero", "http", "imap", "https", "shttp", "rtsp", "rtsps", "rtspu", "sip",
    "sips", "mms", "sftp", "tel"]

/-- Whether a path has text left when the parameters of its last segment are cut off. -/
def isPath (scheme path : List Char) : Bool :=
  match path with
  | [] => false
  | ';' :: rest =>
    !(schemesWithParameters.contains (String.ofList scheme) && !rest.contains '/')
  | _ => true

/-- Whether a text is a URL. -/
def isUrl (text : String) : Bool :=
  let chars := text.toList.dropWhile fun c => c.toNat ≤ 0x20
  !text.isEmpty && !text.toList.any isBlank &&
    match scheme? chars with
    | none => false
    | some (scheme, rest) =>
      let (authority, rest) := authority rest
      let path := (cut '?' (cut '#' rest).1).1
      hasValidBrackets authority &&
        !(authority.any fun c => expandingChars.contains c.toNat) &&
        (!authority.isEmpty || isPath scheme path)

end TypedSql.Format.Url

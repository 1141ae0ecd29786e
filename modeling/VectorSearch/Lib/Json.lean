import VectorSearch.Lib.Dict

namespace VectorSearch

/-!
# JSON texts

JSON values with the printer and the parser of Python's `json` module: `dumps`
with its default separators, with or without escaping everything beyond ASCII,
and `loads`, which keeps the last of several equal keys.

Strings are sequences of Unicode scalar values: texts with lone surrogates,
which Python has as well, are left out, and a text that spells one is not read.
Numbers with a fraction or an exponent, and the three non-finite literals, are
kept as the text they are written with.  Integers of more digits than Python
converts are neither read nor printed.
-/

/-! ## Number texts -/

namespace JsonNumber

/-- The characters a number literal can contain. -/
def isNumberChar (c : Char) : Bool :=
  c.isDigit || c == '-' || c == '+' || c == '.' || c == 'e' || c == 'E'

/-- One or more digits without a superfluous leading zero. -/
def isWhole : List Char → Bool
  | [] => false
  | ['0'] => true
  | '0' :: _ => false
  | digits => digits.all Char.isDigit

def isIntText : List Char → Bool
  | '-' :: digits => isWhole digits
  | digits => isWhole digits

def isExponent : List Char → Bool
  | marker :: rest =>
      (marker == 'e' || marker == 'E') &&
        (match rest with
        | '+' :: digits => digits != [] && digits.all Char.isDigit
        | '-' :: digits => digits != [] && digits.all Char.isDigit
        | digits => digits != [] && digits.all Char.isDigit)
  | [] => false

/-- An integer text followed by a fraction, an exponent, or both. -/
def isDecimalText (text : List Char) : Bool :=
  let front := text.takeWhile fun c => c.isDigit || c == '-'
  let back := text.dropWhile fun c => c.isDigit || c == '-'
  isIntText front &&
    (match back with
    | '.' :: rest =>
        let fraction := rest.takeWhile Char.isDigit
        let exponent := rest.dropWhile Char.isDigit
        fraction != [] && (exponent == [] || isExponent exponent)
    | _ => isExponent back)

def nonFinite : List (List Char) := ["NaN".toList, "Infinity".toList, "-Infinity".toList]

/-- A floating-point literal as `json` reads and writes it. -/
def isFloatText (text : List Char) : Bool :=
  nonFinite.contains text || (text.all isNumberChar && isDecimalText text)

def readInt : List Char → Int
  | '-' :: digits => -(Nat.ofDigitChars 10 digits 0 : Int)
  | digits => Nat.ofDigitChars 10 digits 0

/-- `sys.int_info.default_max_str_digits`. -/
def maxDigits : Nat := 4300

/-- Whether Python converts between an integer and this text of it. -/
def convertible (text : List Char) : Bool := text.countP Char.isDigit ≤ maxDigits

def writeInt : Int → List Char
  | .ofNat value => Nat.toDigits 10 value
  | .negSucc value => '-' :: Nat.toDigits 10 (value + 1)

end JsonNumber

/-- A float, as its literal. -/
abbrev FloatText := { text : List Char // JsonNumber.isFloatText text = true }

inductive Json where
  | null
  | bool (value : Bool)
  | int (value : Int)
  | float (value : FloatText)
  | str (value : String)
  | arr (items : List Json)
  | obj (fields : List (String × Json))

namespace Json

/-! ## Printing -/

def hexDigit (value : Nat) : Char :=
  if value < 10 then Char.ofNat (48 + value) else Char.ofNat (87 + value)

/-- `\uXXXX` for one 16-bit unit. -/
def escapeUnit (unit : Nat) : List Char :=
  ['\\', 'u', hexDigit (unit / 4096 % 16), hexDigit (unit / 256 % 16), hexDigit (unit / 16 % 16),
    hexDigit (unit % 16)]

/-- A character beyond ASCII as one or two escaped units. -/
def escapeWide (code : Nat) : List Char :=
  if code < 0x10000 then escapeUnit code
  else
    escapeUnit (0xD800 + (code - 0x10000) / 1024) ++ escapeUnit (0xDC00 + (code - 0x10000) % 1024)

def writeChar (ensureAscii : Bool) (c : Char) : List Char :=
  if c = '"' then ['\\', '"']
  else if c = '\\' then ['\\', '\\']
  else if c = '\n' then ['\\', 'n']
  else if c = '\r' then ['\\', 'r']
  else if c = '\t' then ['\\', 't']
  else if c.toNat = 8 then ['\\', 'b']
  else if c.toNat = 12 then ['\\', 'f']
  else if c.toNat < 32 then escapeUnit c.toNat
  else if ensureAscii && 127 ≤ c.toNat then escapeWide c.toNat
  else [c]

def writeString (ensureAscii : Bool) (text : String) : List Char :=
  '"' :: (text.toList.flatMap (writeChar ensureAscii) ++ ['"'])

mutual

def write (ensureAscii : Bool) : Json → List Char
  | null => "null".toList
  | bool true => "true".toList
  | bool false => "false".toList
  | int value => JsonNumber.writeInt value
  | float value => value.val
  | str value => writeString ensureAscii value
  | arr items => '[' :: (writeItems ensureAscii items ++ [']'])
  | obj fields => '{' :: (writeFields ensureAscii fields ++ ['}'])

def writeItems (ensureAscii : Bool) : List Json → List Char
  | [] => []
  | [item] => write ensureAscii item
  | item :: rest => write ensureAscii item ++ [',', ' '] ++ writeItems ensureAscii rest

def writeFields (ensureAscii : Bool) : List (String × Json) → List Char
  | [] => []
  | [(key, value)] => writeString ensureAscii key ++ [':', ' '] ++ write ensureAscii value
  | (key, value) :: rest =>
      writeString ensureAscii key ++ [':', ' '] ++ write ensureAscii value ++ [',', ' '] ++
        writeFields ensureAscii rest

end

/-- `json.dumps(value, ensure_ascii=ensureAscii)`, for a value that is `printable`. -/
def dumps (value : Json) (ensureAscii : Bool) : String :=
  String.ofList (write ensureAscii value)

mutual

/-- Whether Python converts every integer of the value. -/
def printable : Json → Bool
  | int value => JsonNumber.convertible (JsonNumber.writeInt value)
  | arr items => printableItems items
  | obj fields => printableFields fields
  | _ => true

def printableItems : List Json → Bool
  | [] => true
  | item :: rest => printable item && printableItems rest

def printableFields : List (String × Json) → Bool
  | [] => true
  | (_, value) :: rest => printable value && printableFields rest

end

/-! ## Parsing -/

def isSpace (c : Char) : Bool := c == ' ' || c == '\n' || c == '\r' || c == '\t'

def skipSpace (chars : List Char) : List Char := chars.dropWhile isSpace

def hexValue (c : Char) : Option Nat :=
  if c.isDigit then some (c.toNat - 48)
  else if 'a' ≤ c ∧ c ≤ 'f' then some (c.toNat - 87)
  else if 'A' ≤ c ∧ c ≤ 'F' then some (c.toNat - 55)
  else none

/-- Four hexadecimal digits. -/
def readUnit : List Char → Option (Nat × List Char)
  | a :: b :: c :: d :: rest => do
      let a ← hexValue a
      let b ← hexValue b
      let c ← hexValue c
      let d ← hexValue d
      return (a * 4096 + b * 256 + c * 16 + d, rest)
  | _ => none

/-- What follows `\u`: one unit, or two that form a pair. -/
def readWide (chars : List Char) : Option (Char × List Char) := do
  let (unit, rest) ← readUnit chars
  if 0xD800 ≤ unit ∧ unit < 0xDC00 then
    match rest with
    | '\\' :: 'u' :: rest =>
        let (low, rest) ← readUnit rest
        if 0xDC00 ≤ low ∧ low < 0xE000 then
          return (Char.ofNat (0x10000 + (unit - 0xD800) * 1024 + (low - 0xDC00)), rest)
        else none
    | _ => none
  else if 0xDC00 ≤ unit ∧ unit < 0xE000 then none
  else return (Char.ofNat unit, rest)

/-- The rest of a string literal after its opening quote. -/
def readString : Nat → List Char → Option (List Char × List Char)
  | 0, _ => none
  | _ + 1, [] => none
  | fuel + 1, c :: rest =>
      if c = '"' then some ([], rest)
      else if c = '\\' then
        match rest with
        | [] => none
        | 'u' :: rest => do
            let (c, rest) ← readWide rest
            let (text, rest) ← readString fuel rest
            return (c :: text, rest)
        | e :: rest => do
            let c ←
              match e with
              | '"' => some '"'
              | '\\' => some '\\'
              | '/' => some '/'
              | 'b' => some (Char.ofNat 8)
              | 'f' => some (Char.ofNat 12)
              | 'n' => some '\n'
              | 'r' => some '\r'
              | 't' => some '\t'
              | _ => none
            let (text, rest) ← readString fuel rest
            return (c :: text, rest)
      else if c.toNat < 32 then none
      else do
        let (text, rest) ← readString fuel rest
        return (c :: text, rest)

/-- A keyword or a number. -/
def readAtom (chars : List Char) : Option (Json × List Char) :=
  if "null".toList.isPrefixOf chars then some (null, chars.drop 4)
  else if "true".toList.isPrefixOf chars then some (bool true, chars.drop 4)
  else if "false".toList.isPrefixOf chars then some (bool false, chars.drop 5)
  else
    let literal :=
      if "NaN".toList.isPrefixOf chars then chars.take 3
      else if "Infinity".toList.isPrefixOf chars then chars.take 8
      else if "-Infinity".toList.isPrefixOf chars then chars.take 9
      else chars.takeWhile JsonNumber.isNumberChar
    if JsonNumber.isIntText literal then
      if JsonNumber.convertible literal then some (int (JsonNumber.readInt literal), chars.drop literal.length)
      else none
    else if valid : JsonNumber.isFloatText literal = true then
      some (float ⟨literal, valid⟩, chars.drop literal.length)
    else none

mutual

def readValue : Nat → List Char → Option (Json × List Char)
  | 0, _ => none
  | fuel + 1, chars =>
      match chars with
      | '"' :: rest => do
          let (text, rest) ← readString (rest.length + 1) rest
          return (str (String.ofList text), rest)
      | '[' :: rest =>
          match skipSpace rest with
          | ']' :: rest => some (arr [], rest)
          | rest => do
              let (items, rest) ← readItems fuel rest
              return (arr items, rest)
      | '{' :: rest =>
          match skipSpace rest with
          | '}' :: rest => some (obj [], rest)
          | rest => do
              let (fields, rest) ← readFields fuel [] rest
              return (obj fields, rest)
      | chars => readAtom chars

/-- The items of an array up to its closing bracket. -/
def readItems : Nat → List Char → Option (List Json × List Char)
  | 0, _ => none
  | fuel + 1, chars => do
      let (item, rest) ← readValue fuel chars
      match skipSpace rest with
      | ']' :: rest => return ([item], rest)
      | ',' :: rest => do
          let (items, rest) ← readItems fuel (skipSpace rest)
          return (item :: items, rest)
      | _ => none

/-- The fields of an object up to its closing brace, added to those read so
far; a key that comes again replaces its value. -/
def readFields : Nat → List (String × Json) → List Char →
    Option (List (String × Json) × List Char)
  | 0, _, _ => none
  | fuel + 1, fields, chars =>
      match chars with
      | '"' :: rest => do
          let (key, rest) ← readString (rest.length + 1) rest
          match skipSpace rest with
          | ':' :: rest => do
              let (value, rest) ← readValue fuel (skipSpace rest)
              let fields := Dict.update (String.ofList key) value fields
              match skipSpace rest with
              | '}' :: rest => return (fields, rest)
              | ',' :: rest => readFields fuel fields (skipSpace rest)
              | _ => none
          | _ => none
      | _ => none

end

/-- Whether the UTF-16 units that the `\uXXXX` of a text spell form pairs where they
are surrogates.  `pending` is set behind the first unit of a pair. -/
def pairsFrom (pending : Bool) : List Char → Bool
  | '\\' :: 'u' :: a :: b :: c :: d :: rest =>
      match readUnit [a, b, c, d] with
      | none => !pending && pairsFrom false rest
      | some (unit, _) =>
          if 0xDC00 ≤ unit ∧ unit < 0xE000 then pending && pairsFrom false rest
          else !pending && pairsFrom (0xD800 ≤ unit ∧ unit < 0xDC00) rest
  | '\\' :: _ :: rest => !pending && pairsFrom false rest
  | _ :: rest => !pending && pairsFrom false rest
  | [] => !pending

/-- A text without the spelling of a lone surrogate. -/
def surrogatesPaired (text : String) : Bool := pairsFrom false text.toList

/-- `json.loads`; `none` stands for the `ValueError` of a text that is not JSON. -/
def loads (text : String) : Option Json := do
  let (value, rest) ← readValue (2 * text.toList.length + 2) (skipSpace text.toList)
  if skipSpace rest = [] then return value else none

end Json
end VectorSearch

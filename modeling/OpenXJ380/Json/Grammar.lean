import Mathlib.Algebra.Group.Nat.Defs
import OpenXJ380.Lib.TextCursor

/-! # The JSON parser (`lib/xapi_json_impl.inc`)

A byte is the character of its number. `double` is a parameter: the parser uses its
operations and no more. There is memory for everything that is allocated.
-/

namespace OpenXJ380.Json

open TextCursor

/-- `xapi_JsonParseResult`. -/
inductive ParseResult where
  | ok
  | invalidParam
  | noMemory
  | syntaxError
  | invalidNumber
  | invalidString
  | trailingContent
deriving DecidableEq

structure Double (ν : Type) where
  ofInt : Nat → ν
  add : ν → ν → ν
  mul : ν → ν → ν
  div : ν → ν → ν
  neg : ν → ν

/-- `xapi_JsonValue`; a string is what is stored before the NUL that ends the buffer. -/
inductive JsonValue (ν : Type) where
  | null
  | bool (value : Bool)
  | number (value : ν)
  | string (value : Text)
  | array (items : List (JsonValue ν))
  | object (entries : List (Text × JsonValue ν))

variable {ν : Type}

abbrev Parser := Parse ParseResult

def isspace (c : Char) : Bool :=
  c = ' ' || c = '\t' || c = '\n' || c = '\r' || c = Char.ofNat 0x0C || c = Char.ofNat 0x0B

def isDigit (c : Char) : Bool := '0' ≤ c && c ≤ '9'

def skipSpaces : Parser PUnit := skipWhile isspace

def hexValue (ch : Char) : Option Nat :=
  if '0' ≤ ch ∧ ch ≤ '9' then some (ch.toNat - '0'.toNat)
  else if 'a' ≤ ch ∧ ch ≤ 'f' then some (ch.toNat - 'a'.toNat + 10)
  else if 'A' ≤ ch ∧ ch ≤ 'F' then some (ch.toNat - 'A'.toNat + 10)
  else none

/-- The four digits behind `\u`. -/
def parseCodepoint : Nat → Nat → Nat → Parser Nat
  | 0, _, codepoint => pure codepoint
  | more + 1, i, codepoint => do
    let ch ← peek i
    match hexValue ch with
    | none => fail .invalidString
    | some value => parseCodepoint more (i + 1) (codepoint * 16 + value)

def decodeUnicode (codepoint : Nat) : Char := if codepoint ≤ 0x7F then Char.ofNat codepoint else '?'

def decodeEscape (escaped : Char) : Option Char :=
  if escaped = '"' then some '"'
  else if escaped = '\\' then some '\\'
  else if escaped = '/' then some '/'
  else if escaped = 'b' then some (Char.ofNat 0x08)
  else if escaped = 'f' then some (Char.ofNat 0x0C)
  else if escaped = 'n' then some '\n'
  else if escaped = 'r' then some '\r'
  else if escaped = 't' then some '\t'
  else none

def stringLoop : Nat → Text → Parser Text
  | 0, _ => outOfRounds
  | more + 1, buffer => do
    let ch ← deref
    if ch = nul then fail .invalidString
    else do
      advance 1
      if ch = '"' then pure buffer
      else if ch.toNat < 0x20 then fail .invalidString
      else if ch ≠ '\\' then stringLoop more (buffer ++ [ch])
      else do
        let escaped ← deref
        advance 1
        match decodeEscape escaped with
        | some decoded => stringLoop more (buffer ++ [decoded])
        | none =>
          if escaped = 'u' then do
            let codepoint ← parseCodepoint 4 0 0
            advance 4
            stringLoop more (buffer ++ [decodeUnicode codepoint])
          else fail .invalidString

def parseStringRaw : Parser Text := do
  let ch ← deref
  if ch ≠ '"' then fail .invalidString
  else do
    advance 1
    let cursor ← here
    stringLoop (rounds cursor) []

/-- `integer = integer * 10.0 + (double)(*p - '0')`, digit by digit. -/
def digitsValue (d : Double ν) (start : ν) (digits : Text) : ν :=
  digits.foldl (fun x ch => d.add (d.mul x (d.ofInt 10)) (d.ofInt (ch.toNat - '0'.toNat))) start

def signPart (l : Text) : Bool × Text := if l.head? = some '-' then (true, l.tail) else (false, l)

def integerPart (d : Double ν) (l : Text) : Option (ν × Text) :=
  match l with
  | [] => none
  | ch :: rest =>
    if ch = '0' then if rest.head?.any isDigit then none else some (d.ofInt 0, rest)
    else if '1' ≤ ch ∧ ch ≤ '9' then some (digitsValue d (d.ofInt 0) (l.takeWhile isDigit), l.dropWhile isDigit)
    else none

def fractionPart (d : Double ν) (l : Text) : Option ((ν × ν) × Text) :=
  if l.head? = some '.' then
    if l.tail.head?.any isDigit then
      let digits := l.tail.takeWhile isDigit
      some ((digitsValue d (d.ofInt 0) digits, digits.foldl (fun x _ => d.mul x (d.ofInt 10)) (d.ofInt 1)),
        l.tail.dropWhile isDigit)
    else none
  else some ((d.ofInt 0, d.ofInt 1), l)

/-- An `int`, digit by digit. -/
def exponentValue (digits : Text) : Int :=
  digits.foldl (fun x ch => (x * 10 + ((ch.toNat - '0'.toNat : Nat) : Int)).bmod (2 ^ 32)) 0

def exponentPart (l : Text) : Option ((Bool × Int) × Text) :=
  if l.head? = some 'e' ∨ l.head? = some 'E' then
    let negative := l.tail.head? = some '-'
    let l := if l.tail.head? = some '+' ∨ l.tail.head? = some '-' then l.tail.tail else l.tail
    if l.head?.any isDigit then some ((negative, exponentValue (l.takeWhile isDigit)), l.dropWhile isDigit) else none
  else some ((false, 0), l)

def scale (d : Double ν) (negative : Bool) : Nat → ν → ν
  | 0, value => value
  | more + 1, value => scale d negative more (if negative then d.div value (d.ofInt 10) else d.mul value (d.ofInt 10))

/-- `xapi_jsonParseNumberValue`, on the text between `begin` and `end`. -/
def parseNumberValue (d : Double ν) (l : Text) : Option ν := do
  let (negative, l) := signPart l
  let (integer, l) ← integerPart d l
  let ((fraction, divisor), l) ← fractionPart d l
  let ((expNegative, exponent), l) ← exponentPart l
  if l ≠ [] then none
  else
    let value := d.add integer (d.div fraction divisor)
    some (scale d expNegative exponent.toNat (if negative then d.neg value else value))

def scanSign : Parser PUnit := do
  let ch ← deref
  if ch = '-' then advance 1 else pure ⟨⟩

def scanInteger : Parser PUnit := do
  let ch ← deref
  if ch = '0' then advance 1
  else if '1' ≤ ch ∧ ch ≤ '9' then skipWhile isDigit
  else fail .invalidNumber

def scanDigits : Parser PUnit := do
  let ch ← deref
  if isDigit ch then skipWhile isDigit else fail .invalidNumber

def scanFraction : Parser PUnit := do
  let ch ← deref
  if ch = '.' then do
    advance 1
    scanDigits
  else pure ⟨⟩

def scanExponentSign : Parser PUnit := do
  let ch ← deref
  if ch = '+' ∨ ch = '-' then advance 1 else pure ⟨⟩

def scanExponent : Parser PUnit := do
  let ch ← deref
  if ch = 'e' ∨ ch = 'E' then do
    advance 1
    scanExponentSign
    scanDigits
  else pure ⟨⟩

def parseNumber (d : Double ν) : Parser (JsonValue ν) := do
  let start ← here
  scanSign
  scanInteger
  scanFraction
  scanExponent
  let stop ← here
  match parseNumberValue d (between start stop) with
  | none => fail .invalidNumber
  | some value => pure (.number value)

def parseLiteral : Parser (JsonValue ν) := do
  let isNull ← startsWith ['n', 'u', 'l', 'l'] 0
  if isNull then do
    advance 4
    pure .null
  else do
    let isTrue ← startsWith ['t', 'r', 'u', 'e'] 0
    if isTrue then do
      advance 4
      pure (.bool true)
    else do
      let isFalse ← startsWith ['f', 'a', 'l', 's', 'e'] 0
      if isFalse then do
        advance 5
        pure (.bool false)
      else fail .syntaxError

def parseStringValue : Parser (JsonValue ν) := do
  let value ← parseStringRaw
  pure (.string value)

/-- The loop of `xapi_jsonParseArray`. -/
def arrayLoop (parseValue : Parser (JsonValue ν)) : Nat → List (JsonValue ν) → Parser (JsonValue ν)
  | 0, _ => outOfRounds
  | more + 1, items => do
    skipSpaces
    let item ← parseValue
    skipSpaces
    let ch ← deref
    if ch = ']' then do
      advance 1
      pure (.array (items ++ [item]))
    else if ch ≠ ',' then fail .syntaxError
    else do
      advance 1
      arrayLoop parseValue more (items ++ [item])

def parseArray (parseValue : Parser (JsonValue ν)) : Parser (JsonValue ν) := do
  let ch ← deref
  if ch ≠ '[' then fail .syntaxError
  else do
    advance 1
    skipSpaces
    let ch ← deref
    if ch = ']' then do
      advance 1
      pure (.array [])
    else do
      let cursor ← here
      arrayLoop parseValue (rounds cursor) []

/-- The loop of `xapi_jsonParseObject`. -/
def objectLoop (parseValue : Parser (JsonValue ν)) : Nat → List (Text × JsonValue ν) → Parser (JsonValue ν)
  | 0, _ => outOfRounds
  | more + 1, entries => do
    skipSpaces
    let ch ← deref
    if ch ≠ '"' then fail .syntaxError
    else do
      let key ← parseStringRaw
      skipSpaces
      let ch ← deref
      if ch ≠ ':' then fail .syntaxError
      else do
        advance 1
        skipSpaces
        let value ← parseValue
        skipSpaces
        let ch ← deref
        if ch = '\x7d' then do
          advance 1
          pure (.object (entries ++ [(key, value)]))
        else if ch ≠ ',' then fail .syntaxError
        else do
          advance 1
          objectLoop parseValue more (entries ++ [(key, value)])

def parseObject (parseValue : Parser (JsonValue ν)) : Parser (JsonValue ν) := do
  let ch ← deref
  if ch ≠ '\x7b' then fail .syntaxError
  else do
    advance 1
    skipSpaces
    let ch ← deref
    if ch = '\x7d' then do
      advance 1
      pure (.object [])
    else do
      let cursor ← here
      objectLoop parseValue (rounds cursor) []

/-- `xapi_jsonParseValue`, to a depth. -/
def parseValue (d : Double ν) : Nat → Parser (JsonValue ν)
  | 0 => outOfRounds
  | depth + 1 => do
    skipSpaces
    let ch ← deref
    if ch = '\x7b' then parseObject (parseValue d depth)
    else if ch = '[' then parseArray (parseValue d depth)
    else if ch = '"' then parseStringValue
    else if ch = '-' ∨ isDigit ch then parseNumber d
    else if ch = 't' ∨ ch = 'f' ∨ ch = 'n' then parseLiteral
    else fail .syntaxError

def parseDocument (d : Double ν) : Parser (JsonValue ν) := do
  skipSpaces
  let cursor ← here
  let root ← parseValue d (rounds cursor)
  skipSpaces
  let ch ← deref
  if ch ≠ nul then fail .trailingContent else pure root

/-- What `xapi_parseJson` returns and the root of the document; nothing where it reads past the NUL or does not end. -/
def parseJson (d : Double ν) (jsonText : Text) : Option (ParseResult × Option (JsonValue ν)) :=
  match parseDocument d (some jsonText) with
  | .ok root _ => some (.ok, some root)
  | .error e => some (e, none)
  | .fault => none
  | .spent => none

/-! # The grammar of JSON texts

The productions, over bytes. What an escape by a code point stands for is a
parameter: the parser keeps ASCII only.
-/

/-- `ws`. -/
def Spaces (t : Text) : Prop := ∀ ch ∈ t, isspace ch = true

def hexDigits (a b c d : Char) : Option Nat := do
  let a ← hexValue a
  let b ← hexValue b
  let c ← hexValue c
  let d ← hexValue d
  some (((a * 16 + b) * 16 + c) * 16 + d)

inductive Chars (unicode : Nat → Text) : Text → Text → Prop
  | nil : Chars unicode [] []
  | unescaped {ch : Char} {s t : Text} (hControl : 0x20 ≤ ch.toNat) (hQuote : ch ≠ '"') (hEscape : ch ≠ '\\')
      (rest : Chars unicode s t) : Chars unicode (ch :: s) (ch :: t)
  | escaped {e ch : Char} {s t : Text} (hEscape : decodeEscape e = some ch) (rest : Chars unicode s t) :
      Chars unicode (ch :: s) ('\\' :: e :: t)
  | codepoint {a b c d : Char} {n : Nat} {s t : Text} (hDigits : hexDigits a b c d = some n)
      (rest : Chars unicode s t) : Chars unicode (unicode n ++ s) ('\\' :: 'u' :: a :: b :: c :: d :: t)

/-- `string`. -/
inductive IsString (unicode : Nat → Text) (s : Text) : Text → Prop
  | quoted {t : Text} (chars : Chars unicode s t) : IsString unicode s ('"' :: (t ++ ['"']))

def Digits (t : Text) : Prop := t ≠ [] ∧ ∀ ch ∈ t, isDigit ch = true

/-- `[ minus ]`, and whether it is there. -/
inductive IsSign : Bool → Text → Prop
  | plus : IsSign false []
  | minus : IsSign true ['-']

/-- `int`: no zero before another digit. -/
inductive IsInteger (d : Double ν) : ν → Text → Prop
  | zero : IsInteger d (d.ofInt 0) ['0']
  | positive {ch : Char} {t : Text} (hFirst : '1' ≤ ch ∧ ch ≤ '9') (hRest : ∀ c ∈ t, isDigit c = true) :
      IsInteger d (digitsValue d (d.ofInt 0) (ch :: t)) (ch :: t)

/-- `[ frac ]`, its digits and their divisor. -/
inductive IsFraction (d : Double ν) : ν → ν → Text → Prop
  | none : IsFraction d (d.ofInt 0) (d.ofInt 1) []
  | some {t : Text} (hDigits : Digits t) :
      IsFraction d (digitsValue d (d.ofInt 0) t) (t.foldl (fun x _ => d.mul x (d.ofInt 10)) (d.ofInt 1)) ('.' :: t)

/-- `[ exp ]`, whether it is negative and its digits. -/
inductive IsExponent : Bool → Int → Text → Prop
  | none : IsExponent false 0 []
  | unsigned {e : Char} {t : Text} (he : e = 'e' ∨ e = 'E') (hDigits : Digits t) :
      IsExponent false (exponentValue t) (e :: t)
  | plus {e : Char} {t : Text} (he : e = 'e' ∨ e = 'E') (hDigits : Digits t) :
      IsExponent false (exponentValue t) (e :: '+' :: t)
  | minus {e : Char} {t : Text} (he : e = 'e' ∨ e = 'E') (hDigits : Digits t) :
      IsExponent true (exponentValue t) (e :: '-' :: t)

/-- `number`, with the arithmetic the parser has. -/
inductive IsNumber (d : Double ν) : ν → Text → Prop
  | parts {negative expNegative : Bool} {x y z : ν} {n : Int} {s i f e : Text} (hSign : IsSign negative s)
      (hInteger : IsInteger d x i) (hFraction : IsFraction d y z f) (hExponent : IsExponent expNegative n e) :
      IsNumber d
        (scale d expNegative n.toNat (if negative then d.neg (d.add x (d.div y z)) else d.add x (d.div y z)))
        (s ++ (i ++ (f ++ e)))

mutual

/-- `value`. -/
inductive IsValue (d : Double ν) (unicode : Nat → Text) : JsonValue ν → Text → Prop
  | null : IsValue d unicode .null ['n', 'u', 'l', 'l']
  | true : IsValue d unicode (.bool Bool.true) ['t', 'r', 'u', 'e']
  | false : IsValue d unicode (.bool Bool.false) ['f', 'a', 'l', 's', 'e']
  | number {x : ν} {t : Text} (hNumber : IsNumber d x t) : IsValue d unicode (.number x) t
  | string {s t : Text} (hString : IsString unicode s t) : IsValue d unicode (.string s) t
  | emptyArray {w : Text} (hSpaces : Spaces w) : IsValue d unicode (.array []) ('[' :: (w ++ [']']))
  | array {items : List (JsonValue ν)} {t : Text} (hItems : IsItems d unicode items t) :
      IsValue d unicode (.array items) ('[' :: (t ++ [']']))
  | emptyObject {w : Text} (hSpaces : Spaces w) : IsValue d unicode (.object []) ('\x7b' :: (w ++ ['\x7d']))
  | object {entries : List (Text × JsonValue ν)} {t : Text} (hEntries : IsEntries d unicode entries t) :
      IsValue d unicode (.object entries) ('\x7b' :: (t ++ ['\x7d']))

inductive IsItems (d : Double ν) (unicode : Nat → Text) : List (JsonValue ν) → Text → Prop
  | last {item : JsonValue ν} {a v b : Text} (hBefore : Spaces a) (hItem : IsValue d unicode item v)
      (hAfter : Spaces b) : IsItems d unicode [item] (a ++ (v ++ b))
  | more {item : JsonValue ν} {items : List (JsonValue ν)} {a v b t : Text} (hBefore : Spaces a)
      (hItem : IsValue d unicode item v) (hAfter : Spaces b) (hItems : IsItems d unicode items t) :
      IsItems d unicode (item :: items) (a ++ (v ++ (b ++ ',' :: t)))

inductive IsEntries (d : Double ν) (unicode : Nat → Text) : List (Text × JsonValue ν) → Text → Prop
  | last {key : Text} {value : JsonValue ν} {a k b c v e : Text} (hBefore : Spaces a) (hKey : IsString unicode key k)
      (hColon : Spaces b) (hSpaces : Spaces c) (hValue : IsValue d unicode value v) (hAfter : Spaces e) :
      IsEntries d unicode [(key, value)] (a ++ (k ++ (b ++ ':' :: (c ++ (v ++ e)))))
  | more {key : Text} {value : JsonValue ν} {entries : List (Text × JsonValue ν)} {a k b c v e t : Text}
      (hBefore : Spaces a) (hKey : IsString unicode key k) (hColon : Spaces b) (hSpaces : Spaces c)
      (hValue : IsValue d unicode value v) (hAfter : Spaces e) (hEntries : IsEntries d unicode entries t) :
      IsEntries d unicode ((key, value) :: entries) (a ++ (k ++ (b ++ ':' :: (c ++ (v ++ (e ++ ',' :: t))))))

end

/-- `JSON-text`. -/
inductive IsDocument (d : Double ν) (unicode : Nat → Text) (root : JsonValue ν) : Text → Prop
  | text {a v b : Text} (hBefore : Spaces a) (hValue : IsValue d unicode root v) (hAfter : Spaces b) :
      IsDocument d unicode root (a ++ (v ++ b))

def asciiOnly (codepoint : Nat) : Text := [decodeUnicode codepoint]

def utf8 (codepoint : Nat) : Text :=
  if codepoint < 0x80 then [Char.ofNat codepoint]
  else if codepoint < 0x800 then [Char.ofNat (0xC0 + codepoint / 64), Char.ofNat (0x80 + codepoint % 64)]
  else
    [Char.ofNat (0xE0 + codepoint / 4096), Char.ofNat (0x80 + codepoint / 64 % 64), Char.ofNat (0x80 + codepoint % 64)]

end OpenXJ380.Json

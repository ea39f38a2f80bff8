import Chip8.Text.Printable

/-!
Texts. Hexadecimal numerals are padded with zeros on the left to a least width; a minus sign comes
before the zeros and counts as one of the places, and a number too long for the width is written in
full. Whole numbers are read in decimal: the digits of every script count, a single low line may
stand between two digits, a sign may stand in front, and blanks around the numeral are dropped.

A text can be cut at every occurrence of a character and joined again; it has one piece more than it
has separators, so an empty text is one empty piece. And it can be put between quotes: single ones,
or double ones if it holds a single quote and no double one. Inside, the quote in use and the
backslash follow a backslash, three controls have letters, and every other character that is not
printable is given by its code point.
-/

namespace Chip8

namespace Numeral

/-- The hexadecimal digits of a natural number, in lower case. -/
def hexDigits (n : Nat) : List Char :=
  Nat.toDigits 16 n

/-- Zeros in front of a text that is shorter than the width. -/
def padded (width : Nat) (digits : List Char) : List Char :=
  List.replicate (width - digits.length) '0' ++ digits

/-- The characters of a signed, padded numeral in lower-case hexadecimal. -/
def hexChars (width : Nat) : Int → List Char
  | .ofNat n => padded width (hexDigits n)
  | .negSucc n => '-' :: padded (width - 1) (hexDigits (n + 1))

/-- A signed numeral of at least `width` places, in lower-case hexadecimal. -/
def hexLower (width : Nat) (n : Int) : String :=
  String.ofList (hexChars width n)

/-- A signed numeral of at least `width` places, in upper-case hexadecimal. -/
def hex (width : Nat) (n : Int) : String :=
  String.ofList ((hexChars width n).map Char.toUpper)

end Numeral

namespace Text

/-! ### Pieces -/

/-- The pieces of a text between the occurrences of a separator. -/
def pieces (separator : Char) : List Char → List (List Char)
  | [] => [[]]
  | c :: rest =>
      if c = separator then [] :: pieces separator rest
      else match pieces separator rest with
        | piece :: others => (c :: piece) :: others
        | [] => [[c]]

/-- Pieces with a separator between any two neighbours. -/
def joined (separator : Char) : List (List Char) → List Char
  | [] => []
  | [piece] => piece
  | piece :: next :: others => piece ++ separator :: joined separator (next :: others)

def lines (text : String) : List String :=
  (pieces '\n' text.toList).map String.ofList

/-! ### Whole numbers -/

/-- The zeros of the scripts that Unicode, in its version 14, gives decimal digits; the digits of a
script follow its zero. -/
def decimalZeros : List Nat :=
  [0x30, 0x660, 0x6F0, 0x7C0, 0x966, 0x9E6, 0xA66, 0xAE6, 0xB66, 0xBE6, 0xC66, 0xCE6, 0xD66, 0xDE6,
   0xE50, 0xED0, 0xF20, 0x1040, 0x1090, 0x17E0, 0x1810, 0x1946, 0x19D0, 0x1A80, 0x1A90, 0x1B50,
   0x1BB0, 0x1C40, 0x1C50, 0xA620, 0xA8D0, 0xA900, 0xA9D0, 0xA9F0, 0xAA50, 0xABF0, 0xFF10, 0x104A0,
   0x10D30, 0x11066, 0x110F0, 0x11136, 0x111D0, 0x112F0, 0x11450, 0x114D0, 0x11650, 0x116C0,
   0x11730, 0x118E0, 0x11950, 0x11C50, 0x11D50, 0x11DA0, 0x16A60, 0x16AC0, 0x16B50, 0x1D7CE,
   0x1D7D8, 0x1D7E2, 0x1D7EC, 0x1D7F6, 0x1E140, 0x1E2F0, 0x1E950, 0x1FBF0]

def digitValue? (c : Char) : Option Nat :=
  (decimalZeros.find? fun start => start ≤ c.toNat && c.toNat < start + 10).map (c.toNat - ·)

/-- Blanks: the space, the five controls from the tab to the carriage return, and Unicode's white
space beyond ASCII. -/
def isBlank (c : Char) : Bool :=
  let n := c.toNat
  n == 0x20 || (0x9 ≤ n && n ≤ 0xD) || n == 0x85 || n == 0xA0 || n == 0x1680 ||
    (0x2000 ≤ n && n ≤ 0x200A) || n == 0x2028 || n == 0x2029 || n == 0x202F || n == 0x205F ||
    n == 0x3000

/-- A text without the blanks at both ends. -/
def trimmed (text : List Char) : List Char :=
  ((text.dropWhile isBlank).reverse.dropWhile isBlank).reverse

/-- The most digits that a numeral may have. -/
def digitLimit : Nat := 4300

/-- The digits of a numeral behind a digit: each further one may have a low line before it. -/
def furtherDigits? : List Char → Option (List Nat)
  | [] => some []
  | '_' :: c :: rest => do return (← digitValue? c) :: (← furtherDigits? rest)
  | c :: rest => do return (← digitValue? c) :: (← furtherDigits? rest)

/-- The natural number that a numeral without sign stands for. -/
def natural? : List Char → Option Nat
  | [] => none
  | c :: rest => do
      let digits := (← digitValue? c) :: (← furtherDigits? rest)
      if digits.length ≤ digitLimit then
        some (digits.foldl (fun n digit => 10 * n + digit) 0)
      else none

/-- The whole number that a text stands for. -/
def whole? (text : String) : Option Int :=
  match trimmed text.toList with
  | '-' :: rest => (natural? rest).map fun n => -(n : Int)
  | '+' :: rest => (natural? rest).map fun n => (n : Int)
  | rest => (natural? rest).map fun n => (n : Int)

/-! ### Quoted texts -/

def singleQuote : Char := '\x27'

def doubleQuote : Char := '\x22'

def backslash : Char := '\x5c'

/-- The quote around a text. -/
def quoteFor (text : List Char) : Char :=
  if text.contains singleQuote && !text.contains doubleQuote then doubleQuote else singleQuote

/-- The code point of a character behind a letter that tells the number of digits. -/
def codePoint (c : Char) : List Char :=
  let n := c.toNat
  if n ≤ 0xFF then 'x' :: Numeral.hexChars 2 n
  else if n ≤ 0xFFFF then 'u' :: Numeral.hexChars 4 n
  else 'U' :: Numeral.hexChars 8 n

def quotedChar (quote : Char) (c : Char) : List Char :=
  if c = quote ∨ c = backslash then [backslash, c]
  else if c = '\t' then [backslash, 't']
  else if c = '\n' then [backslash, 'n']
  else if c = '\r' then [backslash, 'r']
  else if isPrintable c then [c]
  else backslash :: codePoint c

def quoted (text : String) : String :=
  let quote := quoteFor text.toList
  String.ofList (quote :: text.toList.flatMap (quotedChar quote) ++ [quote])

end Text

end Chip8

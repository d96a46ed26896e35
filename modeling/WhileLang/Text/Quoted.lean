import WhileLang.Text.Printable

/-!
Quoted texts: a text between quotation marks, with what cannot be shown written
as an escape. Main statement: between its two marks a quoted text has the escaped
characters of the text.
-/

namespace WhileLang.Text

/-- The single quote, unless the text holds one and no double quote. -/
def quotationMark (text : List Char) : Char :=
  if text.contains '\'' && !text.contains '"' then '"' else '\''

/-- The lower-case digits of a number in base sixteen, at least `width` many. -/
def hexadecimal (width number : Nat) : List Char :=
  let digits := Nat.toDigits 16 number
  List.replicate (width - digits.length) '0' ++ digits

/-- An unprintable character as the shortest of its three numeric escapes. -/
def numericEscape (character : Char) : List Char :=
  let code := character.toNat
  if code < 0x100 then
    '\\' :: 'x' :: hexadecimal 2 code
  else if code < 0x10000 then
    '\\' :: 'u' :: hexadecimal 4 code
  else
    '\\' :: 'U' :: hexadecimal 8 code

/-- One character of a text that stands between two `mark`s. -/
def quotedCharacter (mark character : Char) : List Char :=
  if character = mark ∨ character = '\\' then
    ['\\', character]
  else if character = '\t' then
    ['\\', 't']
  else if character = '\n' then
    ['\\', 'n']
  else if character = '\r' then
    ['\\', 'r']
  else if isPrintable character then
    [character]
  else
    numericEscape character

/-- A text between quotation marks. -/
def quote (text : String) : String :=
  let mark := quotationMark text.toList
  String.ofList <|
    mark :: (text.toList.flatMap (quotedCharacter mark) ++ [mark])

theorem toList_quote (text : String) :
    (quote text).toList =
      quotationMark text.toList ::
        (text.toList.flatMap
            (quotedCharacter (quotationMark text.toList)) ++
          [quotationMark text.toList]) := by
  simp [quote]

end WhileLang.Text

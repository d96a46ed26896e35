/-!
White space: which characters are blank, texts of nothing but blanks, and texts
without the blanks at their end.
-/

namespace WhileLang.Text

/-- The characters with the Unicode property `White_Space`. -/
def isWhiteSpace (character : Char) : Bool :=
  let code := character.toNat
  (9 ≤ code && code ≤ 13) || code == 0x20 || code == 0x85 || code == 0xA0 ||
    code == 0x1680 || (0x2000 ≤ code && code ≤ 0x200A) || code == 0x2028 ||
    code == 0x2029 || code == 0x202F || code == 0x205F || code == 0x3000

/-- White space, or one of the four information separators of ASCII. -/
def isBlank (character : Char) : Bool :=
  isWhiteSpace character ||
    (0x1C ≤ character.toNat && character.toNat ≤ 0x1F)

/-- A text with nothing but blanks in it, the empty one included. -/
def isBlankText (text : String) : Bool :=
  text.toList.all isBlank

/-- A text without the blanks at its end. -/
def dropBlankEnd (text : String) : String :=
  String.ofList (text.toList.reverse.dropWhile isBlank).reverse

end WhileLang.Text

import WhileLang.Lexer

/-!
Feeds: all the tokens of a text, and how they end. A feed yields its tokens in
order, and after them the end of input for ever, or its fault.
-/

namespace WhileLang

/-- The tokens of a text up to its end, or up to a fault. -/
structure Feed where
  tokens : List Token
  fault? : Option LexicalFault
deriving DecidableEq, Repr

namespace Feed

/-- A feed of given tokens that ends without a fault. -/
def ofTokens (tokens : List Token) : Feed :=
  ⟨tokens, none⟩

/-- Puts a token in front. -/
def cons (token : Token) (feed : Feed) : Feed :=
  { feed with tokens := token :: feed.tokens }

/-- Reads tokens, at most `limit` many, until the text ends or is at fault. -/
def drain : Nat → Lexer → Feed
  | 0, _ => ⟨[], none⟩
  | limit + 1, lexer =>
      match lexer.next with
      | (.error fault, _) => ⟨[], some fault⟩
      | (.ok token, advanced) =>
          if token.kind = .endOfInput then
            ⟨[], none⟩
          else
            (drain limit advanced).cons token

/-- All tokens of a text. Every token takes a character, so the limit is not
reached. -/
def ofText (text : String) : Feed :=
  let lexer := Lexer.ofText text
  drain (lexer.rest.length + 1) lexer

/-- Takes the next token off a feed. -/
def pull (feed : Feed) : Except LexicalFault (Token × Feed) :=
  match feed.tokens with
  | token :: tokens => .ok (token, { feed with tokens })
  | [] =>
      match feed.fault? with
      | none => .ok (Token.endOfInput, feed)
      | some fault => .error fault

/-- The tokens and the end of input behind them, unless there is a fault. -/
def toList (feed : Feed) : Except LexicalFault (List Token) :=
  match feed.fault? with
  | none => .ok (feed.tokens ++ [Token.endOfInput])
  | some fault => .error fault

end Feed

/-- All tokens of a text, the end of input included. -/
def tokenize (text : String) : Except LexicalFault (List Token) :=
  (Feed.ofText text).toList

end WhileLang

import Palette.Vocabulary

/-!
# The tokens of the calculator

Operators come in two categories, one per level of precedence, besides the power sign. Comments
run from a number sign to the end of the line. Comments and blanks are skipped by the parser, but
only comments have a tag of their own to be seen by.
-/

namespace Palette.Calculator

/-! ## Kinds -/

/-- Plus and minus signs. -/
def additive : TokenKind := ⟨0⟩

/-- Multiplication and division signs. -/
def multiplicative : TokenKind := ⟨1⟩

/-- The plus sign. -/
def plus : TokenKind := ⟨2⟩

/-- The minus sign. -/
def minus : TokenKind := ⟨3⟩

/-- The multiplication sign. -/
def star : TokenKind := ⟨4⟩

/-- The division sign. -/
def slash : TokenKind := ⟨5⟩

/-- The power sign. -/
def caret : TokenKind := ⟨6⟩

/-- The opening parenthesis. -/
def openParen : TokenKind := ⟨7⟩

/-- The closing parenthesis. -/
def closeParen : TokenKind := ⟨8⟩

/-- A decimal number. -/
def number : TokenKind := ⟨9⟩

/-- A named constant. -/
def constant : TokenKind := ⟨10⟩

/-- A comment. -/
def comment : TokenKind := ⟨11⟩

/-- Blanks and line ends. -/
def whitespace : TokenKind := ⟨12⟩

/-! ## Definitions -/

/-- A category of token types. -/
def categoryDef (name : String) : TokenDef :=
  { name, pattern := none, tags := [], skipped := false, categories := [] }

/-- A type of tokens for the parser. -/
def tokenDef (name pattern : String) (tags : List String) (categories : List TokenKind) :
    TokenDef :=
  { name, pattern := some pattern, tags, skipped := false, categories }

/-- A type of tokens that the parser does not see. -/
def skippedDef (name pattern : String) (tags : List String) : TokenDef :=
  { name, pattern := some pattern, tags, skipped := true, categories := [] }

/-- The token types, by kind. -/
def tokenDefs : List TokenDef :=
  [categoryDef "Additive",
    categoryDef "Multiplicative",
    tokenDef "Plus" "\\+" ["operator"] [additive],
    tokenDef "Minus" "-" ["operator"] [additive],
    tokenDef "Star" "\\*" ["operator"] [multiplicative],
    tokenDef "Slash" "/" ["operator"] [multiplicative],
    tokenDef "Caret" "\\^" ["operator"] [],
    tokenDef "LParen" "\\(" ["paren"] [],
    tokenDef "RParen" "\\)" ["paren"] [],
    tokenDef "Number" "[0-9]+(?:\\.[0-9]+)?(?:[eE][+-]?[0-9]+)?" ["literal", "number"] [],
    tokenDef "Constant" "(?:pi|tau|e)\\b" ["literal", "constant"] [],
    skippedDef "Comment" "#[^\n]*" ["comment"],
    skippedDef "Whitespace" "\\s+" []]

/-- The vocabulary of the calculator. -/
def vocabulary : Except VocabularyError Vocabulary := Vocabulary.ofDefs tokenDefs

end Palette.Calculator

import Std.Data.HashMap
import Palette.Pattern.Search

/-!
# Vocabularies

A vocabulary is an ordered list of token types. A concrete type has a pattern; a category has
none and stands for the types that name it as theirs. Types are defined one after the other, and
each definition is checked as it is made: names are unique, a category has to be defined before
its members, and a pattern must not match the empty text. A definition that fails leaves no
trace. The checks are the same whatever engine compiles the patterns (`defineBy`).

The kind of a type is its index in order of definition. The last index of sixteen bits is set
aside for the end of the input, so a vocabulary holds at most `maxTypes` types.
-/

namespace Palette

/-- A handle to a token type, or to the end of the input. -/
structure TokenKind where
  index : Nat
  deriving DecidableEq, Repr, Hashable

namespace TokenKind

/-- The kind of the end of the input. -/
def endOfInput : TokenKind := ⟨65535⟩

instance : Inhabited TokenKind := ⟨endOfInput⟩

/-- Whether this is the end of the input. -/
def isEndOfInput (k : TokenKind) : Bool := k == endOfInput

/-- The kind described by its index. -/
def describe (k : TokenKind) : String :=
  "TokenKind(" ++ (if k.isEndOfInput then "EOF" else toString k.index) ++ ")"

end TokenKind

/-- A token type as it is asked for. -/
structure TokenDef where
  name : String
  /-- The notation of the pattern; categories have none. -/
  pattern : Option String
  tags : List String
  /-- Tokens of a skipped type are highlighted but hidden from the parser. -/
  skipped : Bool
  categories : List TokenKind

/-- A token type that passed the checks. -/
structure TokenType where
  kind : TokenKind
  name : String
  /-- The way of searching for the pattern; categories have none. -/
  pattern : Option Search
  tags : List String
  skipped : Bool
  categories : List TokenKind

/-- Whether the type stands for its members and matches nothing itself. -/
def TokenType.isCategory (t : TokenType) : Bool := t.pattern.isNone

/-- Why a definition fails. -/
inductive VocabularyError where
  | duplicateName (name : String)
  | invalidPattern (name : String)
  | emptyMatch (name pattern : String)
  | notACategory (name category : String)
  | unknownCategory (name : String)
  | tooManyTypes (max : Nat)
  deriving DecidableEq, Repr

/-- The line by which a failed definition is reported. -/
def VocabularyError.message : VocabularyError → String
  | duplicateName name => "token type `" ++ name ++ "` is defined more than once"
  | invalidPattern name => "token type `" ++ name ++ "` has an invalid pattern"
  | emptyMatch name pattern =>
    "pattern `" ++ pattern ++ "` of token type `" ++ name ++ "` can match the empty string"
  | notACategory name category =>
    "token type `" ++ name ++ "` lists `" ++ category ++
      "` as its category, but it is not a category"
  | unknownCategory name => "token type `" ++ name ++ "` lists an unknown category"
  | tooManyTypes max => "a vocabulary holds at most " ++ toString max ++ " token types"

/-- The number of types that a vocabulary has room for. -/
def maxTypes : Nat := TokenKind.endOfInput.index

/-- A vocabulary that is being defined. -/
structure VocabularyBuilder where
  types : Array TokenType
  byName : Std.HashMap String TokenKind

namespace VocabularyBuilder

/-- No types yet. -/
def empty : VocabularyBuilder := ⟨#[], ∅⟩

/-- The first complaint about the categories of a definition. -/
def categoryError? (types : Array TokenType) (name : String) :
    List TokenKind → Option VocabularyError
  | [] => none
  | category :: rest =>
    match types[category.index]? with
    | none => some (.unknownCategory name)
    | some t =>
      if t.isCategory then categoryError? types name rest else some (.notACategory name t.name)

/-- Compiles and checks the pattern of a definition. -/
def checkPattern (compile : Engine) (name : String) :
    Option String → Except VocabularyError (Option Search)
  | none => .ok none
  | some source =>
    match compile source with
    | none => .error (.invalidPattern name)
    | some search =>
      if search.matchesEmpty then .error (.emptyMatch name source) else .ok (some search)

/-- Adds a type behind the others and returns its kind; its pattern is compiled by an engine. -/
def defineBy (b : VocabularyBuilder) (compile : Engine) (d : TokenDef) :
    Except VocabularyError (TokenKind × VocabularyBuilder) :=
  if b.byName.contains d.name then .error (.duplicateName d.name)
  else if b.types.size ≥ maxTypes then .error (.tooManyTypes maxTypes)
  else
    match categoryError? b.types d.name d.categories with
    | some e => .error e
    | none =>
      match checkPattern compile d.name d.pattern with
      | .error e => .error e
      | .ok pattern =>
        let kind : TokenKind := ⟨b.types.size⟩
        let type : TokenType :=
          { kind, name := d.name, pattern, tags := d.tags, skipped := d.skipped,
            categories := d.categories }
        .ok (kind, { types := b.types.push type, byName := b.byName.insert d.name kind })

/-- Adds a type behind the others and returns its kind. -/
def define (b : VocabularyBuilder) (d : TokenDef) :
    Except VocabularyError (TokenKind × VocabularyBuilder) :=
  b.defineBy Pattern.compile? d

end VocabularyBuilder

/-- The token types of a language. -/
structure Vocabulary where
  types : Array TokenType
  byName : Std.HashMap String TokenKind
  /-- The kinds of the concrete types, in order of definition. -/
  matchable : List TokenKind

/-- The finished vocabulary. -/
def VocabularyBuilder.build (b : VocabularyBuilder) : Vocabulary :=
  { types := b.types, byName := b.byName,
    matchable := (b.types.toList.filter (!·.isCategory)).map (·.kind) }

namespace Vocabulary

/-- The vocabulary without types. -/
def empty : Vocabulary := VocabularyBuilder.empty.build

/-- Defines types in order, up to the first failure. -/
def ofDefs (defs : List TokenDef) : Except VocabularyError Vocabulary := do
  let b ← defs.foldlM (fun b d => do return (← b.define d).2) VocabularyBuilder.empty
  return b.build

/-- The kind of the type with the given name. -/
def kind? (v : Vocabulary) (name : String) : Option TokenKind := v.byName[name]?

/-- The type of a kind. -/
def type? (v : Vocabulary) (kind : TokenKind) : Option TokenType := v.types[kind.index]?

/-- The name of a kind; what is no type of the vocabulary has the name of the end of input. -/
def name (v : Vocabulary) (kind : TokenKind) : String :=
  match v.type? kind with
  | some t => t.name
  | none => "EOF"

/-- Number of types. -/
def size (v : Vocabulary) : Nat := v.types.size

/-- Whether a token of kind `actual` will do where `expected` is asked for. -/
def fits (v : Vocabulary) (actual expected : TokenKind) : Bool :=
  actual == expected || (v.type? actual).any (·.categories.contains expected)

/-- Whether some token will do for both kinds. -/
def overlaps (v : Vocabulary) (a b : TokenKind) : Bool :=
  a == b || v.matchable.any fun concrete => v.fits concrete a && v.fits concrete b

/-- The concrete types with their patterns, in order of definition. -/
def concrete (v : Vocabulary) : List (TokenType × Search) :=
  v.matchable.filterMap fun kind => do
    let t ← v.type? kind
    let search ← t.pattern
    return (t, search)

@[simp] theorem fits_self (v : Vocabulary) (kind : TokenKind) : v.fits kind kind = true := by
  simp [fits]

end Vocabulary

end Palette

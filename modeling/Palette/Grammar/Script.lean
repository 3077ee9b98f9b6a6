import Palette.Grammar.Parser

/-!
# Scripted rules

A rule can be given as a script, a list of steps, instead of a body. Running a script writes down
what happens: every step adds a part to the output, and the value of a rule is its name with its
output in brackets. A step that fails ends the script; what was written before is still there
for those who go on after the failure.
-/

namespace Palette

/-- A step of a scripted rule. -/
inductive ScriptStep where
  | consume (kind : TokenKind)
  | subrule (name : String)
  | many (site : Site) (body : List ScriptStep)
  | atLeastOne (site : Site) (body : List ScriptStep)
  | option (site : Site) (body : List ScriptStep)
  | choose (site : Site) (bodies : List (List ScriptStep))
  | action (event : String)
  | lookahead (number : Nat)
  /-- Goes on with one of two bodies, by the text of a token ahead. -/
  | ifImage (number : Nat) (image : String) (thenBody elseBody : List ScriptStep)
  /-- Goes on with one of two bodies, by whether the rule is being recorded. -/
  | byMode (recording parsing : List ScriptStep)
  /-- Goes on whatever becomes of the body. -/
  | attempt (body : List ScriptStep)
  | progress

namespace ScriptStep

/-- The output with one more part; the first parts that are not empty need no blank. -/
def addPart (output part : String) : String :=
  if output.isEmpty then part else output ++ " " ++ part

/-- A token as a part of the output. -/
def tokenPart (v : Vocabulary) (t : Token) : String := v.name t.kind ++ ":" ++ t.image

/-- The rounds counted so far with their outputs. -/
def roundsPart (rounds : Nat × String) : String :=
  toString rounds.1 ++ "\x7b" ++ rounds.2 ++ "\x7d"

/-- The output of a body, if all its steps succeeded. -/
def whenOk {α : Type} (f : String → α) : Bool → String → Body String α
  | true, output => .done (f output)
  | false, _ => .fail

mutual

/-- Runs a step and goes on with whether it succeeded and with the output. -/
def run {α : Type} (v : Vocabulary) (output : String) (next : Bool → String → Body String α) :
    ScriptStep → Body String α
  | consume kind =>
    .consume kind fun
      | some t => next true (addPart output (tokenPart v t))
      | none => next false output
  | subrule name =>
    .subrule name fun
      | some value => next true (addPart output value)
      | none => next false output
  | many site body =>
    .many site (0, "")
      (fun rounds => runAll v "" (whenOk fun o => (rounds.1 + 1, addPart rounds.2 o)) body) fun
      | some rounds => next true (addPart output (roundsPart rounds))
      | none => next false output
  | atLeastOne site body =>
    .atLeastOne site (0, "")
      (fun rounds => runAll v "" (whenOk fun o => (rounds.1 + 1, addPart rounds.2 o)) body) fun
      | some rounds => next true (addPart output (roundsPart rounds))
      | none => next false output
  | option site body =>
    .option site (runAll v "" (whenOk id) body) fun
      | some (some o) => next true (addPart output ("?(" ++ o ++ ")"))
      | some none => next true (addPart output "?-")
      | none => next false output
  | choose site bodies =>
    let alternatives := runEach v 0 bodies
    .choose site alternatives.length alternatives.get "" fun
      | some part => next true (addPart output part)
      | none => next false output
  | action event => .action event (next true output)
  | lookahead number =>
    .lookahead number fun t => next true (addPart output ("~" ++ tokenPart v t))
  | ifImage number image thenBody elseBody =>
    .lookahead number fun t =>
      if t.image == image then runAll v output next thenBody else runAll v output next elseBody
  | byMode recorded parsed =>
    .recording fun r => if r then runAll v output next recorded else runAll v output next parsed
  | attempt body =>
    runAll v "" (fun ok o => next true (addPart output ("try-" ++ Text.truth ok ++ "(" ++ o ++ ")")))
      body
  | progress => .progress fun p => next true (addPart output p.describe)

/-- Runs steps up to the first that fails. -/
def runAll {α : Type} (v : Vocabulary) (output : String)
    (next : Bool → String → Body String α) : List ScriptStep → Body String α
  | [] => next true output
  | step :: rest =>
    run v output (fun
      | true, output => runAll v output next rest
      | false, output => next false output) step

/-- The alternatives of a choice, each with its index in the value. -/
def runEach (v : Vocabulary) (index : Nat) : List (List ScriptStep) → List (Body String String)
  | [] => []
  | body :: rest =>
    runAll v "" (whenOk fun o => toString index ++ "<" ++ o ++ ">") body ::
      runEach v (index + 1) rest

end

/-- The rule with the given script. -/
def rule (v : Vocabulary) (name : String) (script : List ScriptStep) : RuleDef String :=
  { name, body := runAll v "" (whenOk fun o => name ++ "[" ++ o ++ "]") script }

end ScriptStep

end Palette

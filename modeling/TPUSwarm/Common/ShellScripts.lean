import TPUSwarm.Common.ShellWords

/-!
# What a shell script does

Scripts of simple commands and conditions, with the reader that builds them from the tokens of a text. The programs
of a machine are a parameter: what each does to a world, and its exit status. A script ends with a status of its
own, or the shell gives its process over to a program. What the reader or the shell here does not know has no
meaning.
-/

namespace TPUSwarm.Common.Shell

/-- A command: its words, or a condition and what to do if it holds. -/
inductive Command
  | simple (words : List String)
  | ifThen (condition body : List Command)

/-- The words that are not the name of a command unless they are quoted. -/
def reserved : List String :=
  ["!", "[[", "]]", "\x7b", "\x7d", "case", "coproc", "do", "done", "elif", "else", "esac", "fi", "for",
    "function", "if", "in", "select", "then", "time", "until", "while"]

/-- The text is the name of a variable. -/
def isName : List Char → Bool
  | [] => false
  | c :: rest => (c.isAlpha || c = '_') && rest.all fun d => d.isAlphanum || d = '_'

/-- The text assigns to a variable, unless it is quoted. -/
def isAssignment (text : String) : Bool :=
  let name := text.toList.takeWhile (· ≠ '=')
  text.toList.contains '=' && (isName name || (name.getLast? = some '+' && isName name.dropLast))

/-- The commands around the list of commands that is being read. -/
inductive Around
  | script
  | condition (before : List Command) (outer : Around)
  | body (condition : List Command) (before : List Command) (outer : Around)

/-- Where the reader is in its list: at the beginning of a command, in a simple command, or after a condition. -/
inductive Place
  | start
  | words (read : List String)
  | ended

/-- What has been read of a script. -/
structure Parsing where
  around : Around
  done : List Command
  place : Place

namespace Parsing

/-- The command in hand is complete. -/
def complete (s : Parsing) : List Command :=
  match s.place with
  | .words read => s.done ++ [.simple read]
  | _ => s.done

/-- `then`, which needs commands that are tested in front of it. -/
def enterBody (s : Parsing) : Option Parsing :=
  match s.around with
  | .condition before outer => if s.done.isEmpty then none else some ⟨.body s.done before outer, [], .start⟩
  | _ => none

/-- `fi`, which needs commands in front of it that depend on others. -/
def leaveBody (s : Parsing) : Option Parsing :=
  match s.around with
  | .body condition before outer =>
    if s.done.isEmpty then none else some ⟨outer, before ++ [.ifThen condition s.done], .ended⟩
  | _ => none

/-- A word that begins a command and is not quoted. -/
def begin (s : Parsing) (text : String) : Option Parsing :=
  if text = "if" then some ⟨.condition s.done s.around, [], .start⟩
  else if text = "then" then s.enterBody
  else if text = "fi" then s.leaveBody
  else if reserved.contains text || isAssignment text then none
  else some { s with place := .words [text] }

/-- Read one token. -/
def next (s : Parsing) (token : Token) : Option Parsing :=
  match token, s.place with
  | .word text _, .words read => some { s with place := .words (read ++ [text]) }
  | .word text true, .start => some { s with place := .words [text] }
  | .word text false, .start => s.begin text
  | .word _ _, .ended => none
  | .newline, _ => some ⟨s.around, s.complete, .start⟩
  | .semicolon, .start => none
  | .semicolon, _ => some ⟨s.around, s.complete, .start⟩

end Parsing

/-- A word that is quoted, or else neither reserved nor an assignment, can name a command. -/
def Names (quoted : String → Bool) (name : String) : Prop :=
  quoted name = true ∨ (name ∉ reserved ∧ isAssignment name = false)

instance (quoted : String → Bool) (name : String) : Decidable (Names quoted name) :=
  inferInstanceAs (Decidable (_ ∨ _))

/-- Words after the name of a command are its arguments, whatever they are. -/
theorem Parsing.foldlM_args {around : Around} {done : List Command} {read : List String} (quoted : String → Bool)
    (args : List String) : (args.map (Token.mark quoted)).foldlM next ⟨around, done, .words read⟩ =
      some ⟨around, done, .words (read ++ args)⟩ := by
  induction args generalizing read with
  | nil => simp
  | cons text rest ih => simp [Token.mark, next, ih]

/-- The words of a simple command. -/
theorem Parsing.foldlM_simple {around : Around} {done : List Command} {quoted : String → Bool} {name : String}
    (hname : Names quoted name) (args : List String) :
    ((name :: args).map (Token.mark quoted)).foldlM next ⟨around, done, .start⟩ =
      some ⟨around, done, .words (name :: args)⟩ := by
  have hfirst : next ⟨around, done, .start⟩ (Token.mark quoted name) = some ⟨around, done, .words [name]⟩ := by
    cases hquoted : quoted name with
    | true => simp [Token.mark, next, hquoted]
    | false =>
      obtain ⟨hreserved, hassignment⟩ := hname.resolve_left (by simp [hquoted])
      have hkeyword : name ≠ "if" ∧ name ≠ "then" ∧ name ≠ "fi" := by
        refine ⟨?_, ?_, ?_⟩ <;> (rintro rfl; exact hreserved (by decide))
      simp [Token.mark, next, begin, hquoted, hreserved, hassignment, hkeyword]
  rw [List.map_cons, List.foldlM_cons, hfirst]
  exact foldlM_args quoted args

/-- A line with a simple command. -/
theorem Parsing.foldlM_line {around : Around} {done : List Command} {quoted : String → Bool} {name : String}
    (hname : Names quoted name) (args : List String) (rest : List Token) :
    ((name :: args).map (Token.mark quoted) ++ .newline :: rest).foldlM next
        ⟨around, done, .start⟩ = rest.foldlM next ⟨around, done ++ [.simple (name :: args)], .start⟩ := by
  rw [List.foldlM_append, foldlM_simple hname]
  rfl

/-- A line that tests a simple command. -/
theorem Parsing.foldlM_if {around : Around} {done : List Command} {quoted : String → Bool} {name : String}
    (hname : Names quoted name) (args : List String) (rest : List Token) :
    (Token.word "if" false :: ((name :: args).map (.mark quoted) ++ [.semicolon, .word "then" false]) ++
        .newline :: rest).foldlM next ⟨around, done, .start⟩ =
      rest.foldlM next ⟨.body [.simple (name :: args)] done around, [], .start⟩ := by
  have hif : next ⟨around, done, .start⟩ (.word "if" false) = some ⟨.condition done around, [], .start⟩ := by
    simp [next, begin]
  have hthen : begin ⟨.condition done around, [.simple (name :: args)], .start⟩ "then" =
      some ⟨.body [.simple (name :: args)] done around, [], .start⟩ := by
    simp [begin, enterBody]
  rw [List.cons_append, List.foldlM_cons, hif, List.append_assoc, Option.bind_eq_bind, Option.bind_some,
    List.foldlM_append, foldlM_simple hname, Option.bind_eq_bind, Option.bind_some]
  simp only [List.cons_append, List.nil_append, List.foldlM_cons, next, complete, hthen, Option.bind_eq_bind,
    Option.bind_some]

/-- The line that ends what depends on a test. -/
theorem Parsing.foldlM_fi {outer : Around} {condition before done : List Command} (hne : done ≠ [])
    (rest : List Token) :
    ([Token.word "fi" false, .newline] ++ rest).foldlM next ⟨.body condition before outer, done, .start⟩ =
      rest.foldlM next ⟨outer, before ++ [.ifThen condition done], .start⟩ := by
  have hfi : next ⟨.body condition before outer, done, .start⟩ (.word "fi" false) =
      some ⟨outer, before ++ [.ifThen condition done], .ended⟩ := by
    simp [next, begin, leaveBody, hne]
  rw [List.cons_append, List.foldlM_cons, hfi]
  rfl

/-- The commands of a script, if it is one. -/
def parse (text : String) : Option (List Command) := do
  let tokens ← lex text.toList
  let read ← tokens.foldlM Parsing.next ⟨.script, [], .start⟩
  match read.around with
  | .script => some read.complete
  | _ => none

/-- A text whose tokens are read to the end of a script. -/
theorem parse_of_lex {text : String} {tokens : List Token} {done : List Command} {place : Place}
    (hlex : lex text.toList = some tokens)
    (hread : tokens.foldlM Parsing.next ⟨.script, [], .start⟩ = some ⟨.script, done, place⟩) :
    parse text = some (Parsing.complete ⟨.script, done, place⟩) := by
  simp [parse, hlex, hread]

/-- The world, and whether the shell ends at the first command that fails. -/
structure ShellState (W : Type) where
  world : W
  errexit : Bool

/-- How a script ends. -/
inductive Ending (W : Type)
  | exits (status : ℕ) (world : W)
  | becomes (argv : List String) (world : W)
deriving DecidableEq

/-- What follows a command: the next one, or nothing. -/
inductive Outcome (W : Type)
  | goesOn (status : ℕ) (state : ShellState W)
  | ends (ending : Ending W)

/-- The commands that act on the shell itself. -/
def controls : List String :=
  [".", "break", "builtin", "command", "continue", "enable", "eval", "exec", "exit", "logout", "mapfile",
    "readarray", "return", "set", "shopt", "source", "suspend", "trap"]

variable {W : Type}

/-- A simple command. -/
def perform (run : List String → W → ℕ × W) (words : List String) (s : ShellState W) : Option (Outcome W) :=
  match words with
  | [] => none
  | name :: args =>
    if name = "exec" then
      match args with
      | program :: _ => if program.toList.head? = some '-' then none else some (.ends (.becomes args s.world))
      | [] => none
    else if words = ["exit", "0"] then some (.ends (.exits 0 s.world))
    else if words = ["set", "-euo", "pipefail"] then some (.goesOn 0 { s with errexit := true })
    else if controls.contains name then none
    else some (.goesOn (run words s.world).1 { s with world := (run words s.world).2 })

/-- A command that fails ends the shell if it has been told so and nothing tests the command. -/
def check (tested : Bool) : Outcome W → Outcome W
  | .goesOn status s =>
    if status ≠ 0 ∧ s.errexit = true ∧ tested = false then .ends (.exits status s.world) else .goesOn status s
  | .ends ending => .ends ending

mutual
/-- A command, which may stand in a list that is tested. -/
def Command.eval (run : List String → W → ℕ × W) (tested : Bool) : Command → ShellState W → Option (Outcome W)
  | .simple words, s => (perform run words s).map (check tested)
  | .ifThen condition body, s => do
    match ← evalAll run true condition 0 s with
    | .goesOn status s => if status = 0 then evalAll run tested body 0 s else some (.goesOn 0 s)
    | .ends ending => some (.ends ending)

/-- Commands in order, after one of a given status. -/
def evalAll (run : List String → W → ℕ × W) (tested : Bool) : List Command → ℕ → ShellState W → Option (Outcome W)
  | [], status, s => some (.goesOn status s)
  | command :: rest, _, s => do
    match ← command.eval run tested s with
    | .goesOn status s => evalAll run tested rest status s
    | .ends ending => some (.ends ending)
end

/-- How a script ends, from a given world. -/
def runScript (run : List String → W → ℕ × W) (text : String) (world : W) : Option (Ending W) := do
  let commands ← parse text
  match ← evalAll run false commands 0 ⟨world, false⟩ with
  | .goesOn status s => some (.exits status s.world)
  | .ends ending => some ending

end TPUSwarm.Common.Shell

import TPUSwarm.Common.ShellScripts
import TPUSwarm.Compiling

/-!
# What the compiled command does

The handler writes a shell script for an argument vector and a completion probe, and a command line for a preemption
hook. Quoting is undone by the shell word for word, and the script does what a command task is for: if the probe
succeeds the job ends, and otherwise the job becomes the command.
-/

namespace TPUSwarm

open Common

/-- `shlex.quote` puts the text between quotes. -/
def isQuoted (text : String) : Bool := text = "" || !text.toList.all isShellSafe

/-- A process argument has no character zero in it. -/
def isArgument (text : String) : Bool := !text.toList.contains '\x00'

/-- The shell reads a quoted text as one word, the text. -/
theorem lex_quoteText {text : String} (h : isArgument text = true) :
    Shell.lex (quoteText text).toList = some [.mark isQuoted text] := by
  have hzero : '\x00' ∉ text.toList := by simpa [isArgument] using h
  unfold quoteText Shell.Token.mark isQuoted
  by_cases hempty : text = ""
  · have hnothing : Shell.lex ('\'' :: (Shell.escape [] ++ ['\''])) = some [.word "" true] :=
      Shell.lex_quoted (by simp)
    simpa [hempty, Shell.escape] using hnothing
  · by_cases hsafe : text.toList.all isShellSafe = true
    · have hne : text.toList ≠ [] := by simpa using hempty
      have hplain := Shell.lex_plain hne (List.all_eq_true.mp hsafe)
      simpa [hempty, hsafe] using hplain
    · have hquoted := Shell.lex_quoted hzero
      simpa [hempty, hsafe, Shell.escape] using hquoted

/-- `shlex.join` of texts. -/
def joinTexts (argv : List String) : String := " ".intercalate (argv.map quoteText)

/-- The shell reads a quoted command line as the words it was made of. -/
theorem lex_joinTexts {argv : List String} (h : ∀ text ∈ argv, isArgument text = true) :
    Shell.lex (joinTexts argv).toList = some (argv.map (.mark isQuoted)) := by
  have hwords : List.Forall₂ (fun text read => Shell.lex text.toList = some read) (argv.map quoteText)
      (argv.map fun text => [Shell.Token.mark isQuoted text]) := by
    rw [List.forall₂_map_left_iff, List.forall₂_map_right_iff]
    exact List.forall₂_same.mpr fun text htext => lex_quoteText (h text htext)
  have hjoin := Shell.lex_intercalate ' ' rfl hwords
  rw [Shell.intercalate_words] at hjoin
  exact hjoin

/-- Splitting a quoted command line gives its words back. -/
theorem split_joinTexts {argv : List String} (h : ∀ text ∈ argv, isArgument text = true) :
    Shell.split (joinTexts argv) = some argv := by
  have hwords (argv : List String) :
      (argv.map (Shell.Token.mark isQuoted)).mapM Shell.Token.text? = some argv := by
    induction argv with
    | nil => rfl
    | cons text rest ih => simp [Shell.Token.mark, Shell.Token.text?, ih]
  simp [Shell.split, lex_joinTexts h, hwords]

namespace Json

/-- The text that a value is. -/
def text? (value : Json) : Option String :=
  match value.view with
  | .str s => some s
  | _ => none

/-- The texts of an array. -/
def texts (value : Json) : List String :=
  match value.view with
  | .arr items => items.filterMap text?
  | _ => []

end Json

namespace CommandAutoResumable

/-- An argument vector is quoted text by text. -/
theorem shellJoin_texts {value : Json} (h : isArgv value = true) :
    value.texts ≠ [] ∧ value.shellJoin = .ok (joinTexts value.texts) := by
  have hquoted (items : List Json) (hall : items.all StaticMultiAutoResumable.isKey = true) :
      items.mapM Json.shellQuote = .ok ((items.filterMap Json.text?).map quoteText) ∧
        (items.filterMap Json.text?).length = items.length := by
    induction items with
    | nil => exact ⟨rfl, rfl⟩
    | cons item rest ih =>
      obtain ⟨hitem, hrest⟩ := by simpa using hall
      obtain ⟨hmap, hlength⟩ := ih (by simpa using hrest)
      unfold StaticMultiAutoResumable.isKey at hitem
      split at hitem
      · rename_i s hs
        have htext : item.text? = some s := by rw [Json.text?, hs]
        have hquote : item.shellQuote = .ok (quoteText s) := by rw [Json.shellQuote, hs]
        constructor
        · rw [List.mapM_cons, hquote, hmap]
          simp [htext]
          rfl
        · simp [htext, hlength]
      · cases hitem
  unfold isArgv at h
  split at h
  · rename_i items hview
    obtain ⟨hne, hall⟩ := Bool.and_eq_true_iff.mp h
    obtain ⟨hmap, hlength⟩ := hquoted items hall
    have htexts : value.texts = items.filterMap Json.text? := by rw [Json.texts, hview]
    have hitems : value.items = .ok items := by rw [Json.items, hview]
    refine ⟨fun hempty => ?_, ?_⟩
    · rw [← htexts, hempty] at hlength
      simp [← List.length_eq_zero_iff, ← hlength] at hne
    · rw [htexts, joinTexts]
      exact bind_eq_ok.mpr ⟨items, hitems, bind_eq_ok.mpr ⟨_, hmap, rfl⟩⟩
  · cases h

/-- The argument vector of a payload. -/
def commandOf (payload : Mapping) : List String := (fieldOf payload "argv").texts

/-- The completion probe of a payload. -/
def probeOf (payload : Mapping) : Option (List String) :=
  let probe := fieldOf payload "completion_probe_argv"
  if probe = .null then none else some probe.texts

/-- What the script says when the probe has succeeded. -/
def alreadyComplete : String := "TPUSwarm completion probe: already complete"

/-- The script for a command and a probe. -/
def scriptLines (probe : Option (List String)) (argv : List String) : List String :=
  "set -euo pipefail" :: (probe.elim [] fun probe =>
    ["if " ++ joinTexts probe ++ "; then", "  echo '" ++ alreadyComplete ++ "'", "  exit 0", "fi"]) ++
      ["exec " ++ joinTexts argv]

/-- The script that the handler writes for an accepted payload. -/
theorem script_eq {payload : Mapping} (h : Accepted payload) :
    script payload = .ok (scriptLines (probeOf payload) (commandOf payload)) := by
  obtain ⟨command, hcommand, hargv⟩ := h.argv
  have hfield : fieldOf payload "argv" = command := by rw [fieldOf, hcommand, Option.getD_some]
  have hprobing : probing payload = .ok ((probeOf payload).elim [] fun probe =>
      ["if " ++ joinTexts probe ++ "; then", "  echo '" ++ alreadyComplete ++ "'", "  exit 0", "fi"]) := by
    unfold probing probeOf
    dsimp only
    split
    · rfl
    · rename_i hprobe
      rw [(shellJoin_texts (h.probe hprobe)).2]
      rfl
  refine bind_eq_ok.mpr ⟨_, hprobing, bind_eq_ok.mpr ⟨command, orRaise_eq_ok.mpr hcommand, ?_⟩⟩
  refine bind_eq_ok.mpr ⟨_, (shellJoin_texts hargv).2, ?_⟩
  rw [commandOf, hfield]
  rfl

/-- A shell reads the line of the command as `exec` and its words. -/
theorem lex_execLine {argv : List String} (h : ∀ text ∈ argv, isArgument text = true) :
    Shell.lex ("exec " ++ joinTexts argv).toList = some (("exec" :: argv).map (.mark isQuoted)) := by
  have hexec : Shell.lex "exec".toList = some [Shell.Token.mark isQuoted "exec"] := by decide +kernel
  have hline := Shell.lex_append hexec (c := ' ') rfl (lex_joinTexts h)
  simpa using hline

/-- A shell reads the line of the probe as a condition with its words. -/
theorem lex_ifLine {probe : List String} (h : ∀ text ∈ probe, isArgument text = true) :
    Shell.lex ("if " ++ joinTexts probe ++ "; then").toList =
      some (.word "if" false :: (probe.map (.mark isQuoted) ++ [.semicolon, .word "then" false])) := by
  have hif : Shell.lex "if".toList = some [.word "if" false] := by decide +kernel
  have hthen : Shell.lex " then".toList = some [.word "then" false] := by decide +kernel
  have hprobe := Shell.lex_append (lex_joinTexts h) (c := ';') rfl hthen
  have hline := Shell.lex_append hif (c := ' ') rfl hprobe
  simpa using hline

/-- A probe and a command that a shell takes for what they are: process arguments, the probe begins with the name of
a program that is neither a word of the shell's language nor a command that acts on the shell, and the command does
not begin with an option of `exec`. -/
structure Runnable (probe : Option (List String)) (argv : List String) : Prop where
  argv_arguments : ∀ text ∈ argv, isArgument text = true
  argv_program : ∃ program args, argv = program :: args ∧ program.toList.head? ≠ some '-'
  probe_arguments : ∀ words ∈ probe, ∀ text ∈ words, isArgument text = true
  probe_program : ∀ words ∈ probe, ∃ name args, words = name :: args ∧ Shell.Names isQuoted name ∧
    name ∉ Shell.controls

/-- The commands of the script. -/
def scriptCommands (probe : Option (List String)) (argv : List String) : List Shell.Command :=
  .simple ["set", "-euo", "pipefail"] :: (probe.elim [] fun probe =>
    [.ifThen [.simple probe] [.simple ["echo", alreadyComplete], .simple ["exit", "0"]]]) ++
      [.simple ("exec" :: argv)]

/-- A shell reads the script as it is meant. -/
theorem parse_script {probe : Option (List String)} {argv : List String} (h : Runnable probe argv) :
    Shell.parse ("\n".intercalate (scriptLines probe argv)) = some (scriptCommands probe argv) := by
  have hnewline : String.singleton '\n' = "\n" := rfl
  have hset : Shell.lex "set -euo pipefail".toList = some (["set", "-euo", "pipefail"].map (.mark isQuoted)) := by
    decide +kernel
  have hexec := lex_execLine h.argv_arguments
  have hnamesSet : Shell.Names isQuoted "set" := by decide +kernel
  have hnamesExec : Shell.Names isQuoted "exec" := by decide +kernel
  cases probe with
  | none =>
    have hlex := Shell.lex_intercalate '\n' rfl (.cons hset (.cons hexec .nil))
    have hread : ([.newline].intercalate [["set", "-euo", "pipefail"].map (.mark isQuoted),
        ("exec" :: argv).map (.mark isQuoted)]).foldlM Shell.Parsing.next ⟨.script, [], .start⟩ =
          some ⟨.script, [.simple ["set", "-euo", "pipefail"]], .words ("exec" :: argv)⟩ := by
      rw [List.intercalate_cons_cons, List.intercalate_singleton, List.append_assoc, List.singleton_append,
        Shell.Parsing.foldlM_line hnamesSet, Shell.Parsing.foldlM_simple hnamesExec]
      rfl
    rw [hnewline] at hlex
    exact Shell.parse_of_lex hlex hread
  | some probe =>
    have hecho : Shell.lex ("  echo '" ++ alreadyComplete ++ "'").toList =
        some (["echo", alreadyComplete].map (.mark isQuoted)) := by decide +kernel
    have hexit : Shell.lex "  exit 0".toList = some (["exit", "0"].map (.mark isQuoted)) := by decide +kernel
    have hfi : Shell.lex "fi".toList = some [.word "fi" false] := by decide +kernel
    have hnamesEcho : Shell.Names isQuoted "echo" := by decide +kernel
    have hnamesExit : Shell.Names isQuoted "exit" := by decide +kernel
    have hif := lex_ifLine (h.probe_arguments probe rfl)
    obtain ⟨name, args, rfl, hname, -⟩ := h.probe_program probe rfl
    have hlex := Shell.lex_intercalate '\n' rfl
      (.cons hset (.cons hif (.cons hecho (.cons hexit (.cons hfi (.cons hexec .nil))))))
    rw [hnewline] at hlex
    have hread : ([.newline].intercalate [["set", "-euo", "pipefail"].map (.mark isQuoted),
        .word "if" false :: ((name :: args).map (.mark isQuoted) ++ [.semicolon, .word "then" false]),
        ["echo", alreadyComplete].map (.mark isQuoted), ["exit", "0"].map (.mark isQuoted), [.word "fi" false],
        ("exec" :: argv).map (.mark isQuoted)]).foldlM Shell.Parsing.next ⟨.script, [], .start⟩ =
          some ⟨.script, [.simple ["set", "-euo", "pipefail"], .ifThen [.simple (name :: args)]
            [.simple ["echo", alreadyComplete], .simple ["exit", "0"]]], .words ("exec" :: argv)⟩ := by
      simp only [List.intercalate_cons_cons, List.intercalate_singleton, List.append_assoc, List.singleton_append]
      rw [Shell.Parsing.foldlM_line hnamesSet, Shell.Parsing.foldlM_if hname, Shell.Parsing.foldlM_line hnamesEcho,
        Shell.Parsing.foldlM_line hnamesExit, Shell.Parsing.foldlM_fi (by simp),
          Shell.Parsing.foldlM_simple hnamesExec]
      rfl
    exact Shell.parse_of_lex hlex hread

/-- What a command task is for: the job ends if its probe succeeds, and otherwise becomes the command. -/
def intended {W : Type} (run : List String → W → ℕ × W) (probe : Option (List String)) (argv : List String)
    (world : W) :
    Shell.Ending W :=
  match probe with
  | none => .becomes argv world
  | some probe =>
    let probed := run probe world
    if probed.1 = 0 then
      let echoed := run ["echo", alreadyComplete] probed.2
      .exits echoed.1 echoed.2
    else .becomes argv probed.2

/-- The script does what a command task is for, whatever the programs do. -/
theorem runScript_scriptLines {W : Type} (run : List String → W → ℕ × W) {probe : Option (List String)}
    {argv : List String} (h : Runnable probe argv) (world : W) :
    Shell.runScript run ("\n".intercalate (scriptLines probe argv)) world = some
      (intended run probe argv world) := by
  obtain ⟨program, arguments, rfl, hprogram⟩ := h.argv_program
  have hset (s : Shell.ShellState W) : Shell.perform run ["set", "-euo", "pipefail"] s =
      some (.goesOn 0 { s with errexit := true }) := by
    simp [Shell.perform]
  have hexec (s : Shell.ShellState W) : Shell.perform run ("exec" :: program :: arguments) s =
      some (.ends (.becomes (program :: arguments) s.world)) := by
    simp [Shell.perform, hprogram]
  cases hprobe : probe with
  | none =>
    rw [hprobe] at h
    simp [Shell.runScript, parse_script h, scriptCommands, Shell.evalAll, Shell.Command.eval, hset, hexec,
      Shell.check, intended]
  | some words =>
    obtain ⟨name, args, rfl, -, hcontrols⟩ := h.probe_program words hprobe
    have hrun (s : Shell.ShellState W) : Shell.perform run (name :: args) s =
        some (.goesOn (run (name :: args) s.world).1 { s with world := (run (name :: args) s.world).2 }) := by
      have hspecial : name ≠ "exec" ∧ name ≠ "exit" ∧ name ≠ "set" := by
        refine ⟨?_, ?_, ?_⟩ <;> (rintro rfl; exact hcontrols (by decide))
      simp [Shell.perform, hspecial, hcontrols]
    have hecho (s : Shell.ShellState W) : Shell.perform run ["echo", alreadyComplete] s =
        some (.goesOn (run ["echo", alreadyComplete] s.world).1
          { s with world := (run ["echo", alreadyComplete] s.world).2 }) := by
      simp [Shell.perform, Shell.controls]
    have hexit (s : Shell.ShellState W) : Shell.perform run ["exit", "0"] s = some (.ends (.exits 0 s.world)) := by
      simp [Shell.perform]
    rw [hprobe] at h
    by_cases hsucceeds : (run (name :: args) world).1 = 0
    · by_cases hechoes : (run ["echo", alreadyComplete] (run (name :: args) world).2).1 = 0
      · simp [Shell.runScript, parse_script h, scriptCommands, Shell.evalAll, Shell.Command.eval, hset, hrun,
          hecho, hexit, Shell.check, intended, hsucceeds, hechoes]
      · simp [Shell.runScript, parse_script h, scriptCommands, Shell.evalAll, Shell.Command.eval, hset, hrun, hecho,
          Shell.check, intended, hsucceeds, hechoes]
    · simp [Shell.runScript, parse_script h, scriptCommands, Shell.evalAll, Shell.Command.eval, hset, hrun, hexec,
        Shell.check, intended, hsucceeds]

/-- The constructor of a managed job keeps the script and the configuration. -/
theorem buildManagedJob_eq_ok {environ : Environ} {arguments : ManagedJobArguments} {job : ManagedJobSpec}
    (h : buildManagedJob environ arguments = .ok job) :
    job.run = arguments.run ∧ arguments.config.toDict = .ok job.config := by
  obtain ⟨_, -, h⟩ := bind_eq_ok.mp h
  obtain ⟨_, -, h⟩ := bind_eq_ok.mp h
  obtain ⟨_, -, h⟩ := bind_eq_ok.mp h
  obtain ⟨_, -, h⟩ := bind_eq_ok.mp h
  obtain ⟨_, -, h⟩ := bind_eq_ok.mp h
  obtain ⟨_, -, h⟩ := bind_eq_ok.mp h
  obtain ⟨_, -, h⟩ := bind_eq_ok.mp h
  obtain ⟨_, -, h⟩ := bind_eq_ok.mp h
  obtain ⟨_, -, h⟩ := bind_eq_ok.mp h
  obtain ⟨config, hconfig, h⟩ := bind_eq_ok.mp h
  cases h
  exact ⟨rfl, hconfig⟩

/-- A compiled task has the script and the configuration that the handler makes of its payload. -/
theorem managedJob_eq_ok {environ : Environ} {task : TaskRecord} {job : ManagedJobSpec}
    (h : managedJob environ task = .ok job) :
    ∃ lines, script task.payload = .ok lines ∧ job.run = "\n".intercalate lines ∧
      hookedConfig task.payload = .ok job.config := by
  obtain ⟨lines, hlines, h⟩ := bind_eq_ok.mp h
  obtain ⟨config, hconfig, h⟩ := bind_eq_ok.mp h
  obtain ⟨_, -, h⟩ := bind_eq_ok.mp h
  obtain ⟨_, -, h⟩ := bind_eq_ok.mp h
  obtain ⟨hrun, hkept⟩ := buildManagedJob_eq_ok h
  rw [Json.toDict, Json.view_obj] at hkept
  cases hkept
  exact ⟨lines, hlines, hrun, hconfig⟩

/-- A command whose words the shell would take apart, with a probe and a preemption command. -/
def probedCommand : Mapping :=
  Dict.ofList [("argv", .arr [.str "python", .str "train.py", .str "it's $HOME; a\nb"]),
    ("completion_probe_argv", .arr [.str "test", .str "-f", .str "done file"]),
    ("config", .obj (Dict.empty.set "hooks" (.arr [.obj Dict.empty]))),
    ("preemption_argv", .arr [.str "sync", .str "'&&'"]),
    ("resources", .obj (Dict.empty.set "accelerators" (.str "tpu-v6e-8")))]

/-- The sample payload with a probe is accepted. -/
theorem probedCommand_accepted : validatePayload probedCommand = .ok probedCommand := by decide +kernel

/-- The sample payload with a probe is compiled. -/
theorem exists_probedCommand_job : ∃ job, managedJob Dict.empty (commandRecord probedCommand) = .ok job := by
  have hblank : isBlank (commandRecord probedCommand).jobName = false := isBlank_executorName "train"
  have hdefined : SecretsDefined Dict.empty probedCommand := by decide +kernel
  have hcompilable : Compilable probedCommand := by decide +kernel
  exact (exists_managedJob_iff (accepted_of_validatePayload probedCommand_accepted) hblank hdefined).mpr hcompilable

/-- A machine that counts what it runs, and on which no test succeeds. -/
def failingTests (words : List String) (count : ℕ) : ℕ × ℕ :=
  (if words.head? = some "test" then 1 else 0, count + 1)

/-- A preemption command joins the hooks of the configuration, after those that are there. A shell splits its line
into the words of the command, and nothing else of the configuration changes. -/
theorem preemption_hook_added {environ : Environ} {payload : Mapping} {task : TaskRecord} {job : ManagedJobSpec}
    (hvalid : validatePayload payload = .ok task.payload) (hjob : managedJob environ task = .ok job)
    (hpreemption : fieldOf task.payload "preemption_argv" ≠ .null)
    (harguments : ∀ text ∈ (fieldOf task.payload "preemption_argv").texts, isArgument text = true) :
    ∃ hooks timeout hook line, (((entriesOf task.payload "config").get? "hooks").getD (.arr [])).items = .ok hooks ∧
      ((task.payload.get? "preemption_timeout").getD (.int 90)).toInt = .ok timeout ∧
        job.config = (entriesOf task.payload "config").set "hooks" (.arr (hooks ++ [.obj hook])) ∧
          hook = Dict.ofList [("run", .str line), ("events", .arr [.str "preemption", .str "down"]),
            ("timeout", .int timeout)] ∧
              Shell.split line = some (fieldOf task.payload "preemption_argv").texts := by
  have haccepted := accepted_of_validatePayload hvalid
  obtain ⟨-, -, -, hconfig⟩ := managedJob_eq_ok hjob
  obtain ⟨config, hentries, hconfig⟩ := bind_eq_ok.mp hconfig
  rw [toDict_mappingOf (haccepted.mappings "config" (by simp))] at hentries
  cases hentries
  dsimp only at hconfig
  rw [if_neg hpreemption] at hconfig
  obtain ⟨hooks, hhooks, hconfig⟩ := bind_eq_ok.mp hconfig
  obtain ⟨line, hline, hconfig⟩ := bind_eq_ok.mp hconfig
  obtain ⟨timeout, htimeout, hconfig⟩ := bind_eq_ok.mp hconfig
  rw [(shellJoin_texts (haccepted.preemption hpreemption)).2] at hline
  cases hline
  exact ⟨hooks, timeout, _, _, hhooks, htimeout, (Except.ok.inj hconfig).symm, rfl, split_joinTexts harguments⟩

/-- The hook of the sample command stands behind the one that it brings. -/
theorem preemption_hook_added_probed :
    ∃ job line hook, managedJob Dict.empty (commandRecord probedCommand) = .ok job ∧
    job.config.get? "hooks" = some (.arr [.obj Dict.empty, .obj hook]) ∧ hook.get? "run" = some (.str line) ∧
      Shell.split line = some ["sync", "'&&'"] := by
  obtain ⟨job, hjob⟩ := exists_probedCommand_job
  obtain ⟨hooks, timeout, hook, line, hhooks, -, hconfig, hhook, hsplit⟩ :=
    preemption_hook_added probedCommand_accepted hjob
    (by decide +kernel) (by decide +kernel)
  have hgiven : (((entriesOf (commandRecord probedCommand).payload "config").get? "hooks").getD (.arr [])).items =
      .ok [.obj Dict.empty] := by decide +kernel
  cases hgiven.symm.trans hhooks
  have htexts : (fieldOf (commandRecord probedCommand).payload "preemption_argv").texts = ["sync", "'&&'"] := by
    decide +kernel
  rw [htexts] at hsplit
  refine ⟨job, line, hook, hjob, ?_, ?_, hsplit⟩
  · rw [hconfig, Dict.get?_set, if_pos rfl]
    rfl
  · rw [hhook, Dict.get?_ofList (by simp)]
    simp

end CommandAutoResumable

end TPUSwarm

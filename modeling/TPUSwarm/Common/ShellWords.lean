import Mathlib.Data.String.Basic

/-!
# The words of a shell script

A reader for the part of the shell's lexical grammar that no setting and no environment changes: words that are
plain from end to end or quoted from end to end, and the separators blank, newline and semicolon. It refuses every
other text, so what it reads has one meaning in every shell.
-/

namespace TPUSwarm.Common.Shell

/-- A character that stands for itself outside of quotes. -/
def isPlain (c : Char) : Bool := c.isAlphanum || "_@%+=:,.-/".toList.contains c

/-- A word without its quotes, and whether it had any, or what separates commands. -/
inductive Token
  | word (text : String) (quoted : Bool)
  | newline
  | semicolon
deriving DecidableEq

/-- The token of a word, where a function tells which words are quoted. -/
def Token.mark (quoted : String → Bool) (text : String) : Token := .word text (quoted text)

/-- Where the reader is: between two words, or in a word of which it has read some characters. -/
inductive Lexing
  | between
  | plain (read : List Char)
  | single (read : List Char)
  | double (read : List Char)
  | closed (read : List Char)

/-- The word in hand. There is none to give while a quote is open. -/
def Lexing.word? : Lexing → Option (List Token)
  | between => some []
  | plain read => some [.word (String.ofList read) false]
  | closed read => some [.word (String.ofList read) true]
  | single _ | double _ => none

/-- The tokens that a separator stands for. -/
def separator? (c : Char) : Option (List Token) :=
  if c = ' ' then some []
  else if c = '\n' then some [.newline]
  else if c = ';' then some [.semicolon]
  else none

/-- A character that keeps a meaning of its own between double quotes. -/
def isActive (c : Char) : Bool := "$`\\!".toList.contains c

/-- A character outside of quotes that is no separator. -/
def Lexing.enter (s : Lexing) (c : Char) : Option Lexing :=
  match s with
  | between =>
    if c = '\'' then some (.single []) else if c = '"' then some (.double [])
    else if isPlain c then some (.plain [c]) else none
  | plain read => if isPlain c then some (.plain (read ++ [c])) else none
  | closed read => if c = '\'' then some (.single read) else if c = '"' then some (.double read) else none
  | single _ | double _ => none

/-- Read one character: where the reader is then, and the tokens that are complete. No script has a character
zero in it. -/
def Lexing.next (s : Lexing) (c : Char) : Option (Lexing × List Token) :=
  if c = '\x00' then none
  else
    match s with
    | single read => some (if c = '\'' then .closed read else .single (read ++ [c]), [])
    | double read =>
      if c = '"' then some (.closed read, []) else if isActive c then none else some (.double (read ++ [c]), [])
    | s =>
      match separator? c with
      | some tokens => s.word?.map fun word => (.between, word ++ tokens)
      | none => (s.enter c).map fun s => (s, [])

/-- Read characters one after the other. -/
def Lexing.scan : Lexing → List Char → Option (Lexing × List Token)
  | s, [] => some (s, [])
  | s, c :: rest => do
    let (s, tokens) ← s.next c
    let (s, later) ← s.scan rest
    return (s, tokens ++ later)

/-- The tokens of a text. -/
def lex (text : List Char) : Option (List Token) := do
  let (s, tokens) ← Lexing.between.scan text
  let word ← s.word?
  return tokens ++ word

/-- Reading goes on where it stopped. -/
theorem Lexing.scan_append {s mid last : Lexing} {first second : List Char} {tokens later : List Token}
    (hfirst : s.scan first = some (mid, tokens)) (hsecond : mid.scan second = some (last, later)) :
    s.scan (first ++ second) = some (last, tokens ++ later) := by
  induction first generalizing s tokens with
  | nil =>
    cases hfirst
    exact hsecond
  | cons c rest ih =>
    simp only [scan, Option.bind_eq_bind, Option.bind_eq_some_iff, Prod.exists] at hfirst
    obtain ⟨s', now, hnext, mid', others, hrest, heq⟩ := hfirst
    cases heq
    simp [scan, hnext, ih hrest]

/-- What a text is read as. -/
theorem lex_eq_some {text : List Char} {tokens : List Token} :
    lex text = some tokens ↔ ∃ s before word, Lexing.between.scan text = some (s, before) ∧ s.word? = some word ∧
      before ++ word = tokens := by
  simp [lex, Option.bind_eq_some_iff]

/-- A separator completes the word in hand. -/
theorem Lexing.next_separator {s : Lexing} {c : Char} {word tokens : List Token} (hword : s.word? = some word)
    (hc : separator? c = some tokens) : s.next c = some (.between, word ++ tokens) := by
  have hzero : c ≠ '\x00' := by
    rintro rfl
    simp [separator?] at hc
  cases s with
  | single read | double read => simp [word?] at hword
  | _ => simp [next, hzero, hc, hword]

/-- The tokens of two texts with a separator between them. -/
theorem lex_append {first second : List Char} {c : Char} {before between after : List Token}
    (hfirst : lex first = some before) (hc : separator? c = some between) (hsecond : lex second = some after) :
    lex (first ++ c :: second) = some (before ++ between ++ after) := by
  obtain ⟨s, done, word, hscan, hword, rfl⟩ := lex_eq_some.mp hfirst
  obtain ⟨last, done', word', hscan', hword', rfl⟩ := lex_eq_some.mp hsecond
  have hrest : s.scan (c :: second) = some (last, word ++ between ++ done') := by
    simp [Lexing.scan, Lexing.next_separator hword hc, hscan']
  refine lex_eq_some.mpr ⟨last, _, word', Lexing.scan_append hscan hrest, hword', ?_⟩
  simp

/-- Nothing stands between the tokens of words with blanks between them. -/
theorem intercalate_words {α : Type*} (f : α → Token) (l : List α) :
    ([] : List Token).intercalate (l.map fun a => [f a]) = l.map f := by
  induction l with
  | nil => rfl
  | cons a rest ih =>
    cases rest with
    | nil => simp
    | cons b others => simpa [List.intercalate_cons_cons] using ih

/-- The tokens of texts with one separator between any two. -/
theorem lex_intercalate (sep : Char) {between : List Token} (hsep : separator? sep = some between)
    {texts : List String} {tokens : List (List Token)}
    (h : List.Forall₂ (fun text read => lex text.toList = some read) texts tokens) :
    lex ((String.singleton sep).intercalate texts).toList = some (between.intercalate tokens) := by
  induction h with
  | nil => simp [lex, Lexing.scan, Lexing.word?]
  | @cons text read texts tokens hfirst hrest ih =>
    cases hrest with
    | nil => simpa using hfirst
    | cons hsecond hothers =>
      have happend := lex_append hfirst hsep ih
      simpa [String.intercalate_cons_cons, List.intercalate_cons_cons] using happend

/-- A plain character is no separator. -/
theorem separator?_plain {c : Char} (h : isPlain c = true) : separator? c = none := by
  unfold separator?
  split_ifs with hblank hnewline hsemicolon
  · simp [hblank, isPlain] at h
  · simp [hnewline, isPlain] at h
  · simp [hsemicolon, isPlain] at h
  · rfl

/-- A character that stands for itself is no NUL. -/
theorem plain_ne_zero {c : Char} (h : isPlain c = true) : c ≠ '\x00' := by
  rintro rfl
  simp [isPlain] at h

/-- Plain characters go to the word in hand. -/
theorem Lexing.scan_plain {read cs : List Char} (h : ∀ c ∈ cs, isPlain c = true) :
    (plain read).scan cs = some (.plain (read ++ cs), []) := by
  induction cs generalizing read with
  | nil => simp [scan]
  | cons c rest ih =>
    obtain ⟨hc, hrest⟩ := List.forall_mem_cons.mp h
    simp [scan, next, enter, plain_ne_zero hc, separator?_plain hc, hc, ih hrest]

/-- A text of plain characters is a word. -/
theorem lex_plain {cs : List Char} (hne : cs ≠ []) (h : ∀ c ∈ cs, isPlain c = true) :
    lex cs = some [.word (String.ofList cs) false] := by
  cases cs with
  | nil => exact absurd rfl hne
  | cons c rest =>
    obtain ⟨hc, hrest⟩ := List.forall_mem_cons.mp h
    have hquote : c ≠ '\'' ∧ c ≠ '"' := by
      constructor <;> (rintro rfl; simp [isPlain] at hc)
    have hscan : Lexing.between.scan (c :: rest) = some (.plain (c :: rest), []) := by
      simp [Lexing.scan, Lexing.next, Lexing.enter, plain_ne_zero hc, separator?_plain hc, hc, hquote,
        Lexing.scan_plain hrest]
    exact lex_eq_some.mpr ⟨_, _, _, hscan, rfl, rfl⟩

/-- The characters of a word between single quotes. A single quote ends the quoted part, stands between double
quotes, and begins another one. -/
def escape (cs : List Char) : List Char := cs.flatMap fun c => if c = '\'' then "'\"'\"'".toList else [c]

/-- Reading quoted characters gives them back. -/
theorem Lexing.scan_escape {read cs : List Char} (h : '\x00' ∉ cs) :
    (single read).scan (escape cs) = some (.single (read ++ cs), []) := by
  induction cs generalizing read with
  | nil => simp [escape, scan]
  | cons c rest ih =>
    obtain ⟨hc, hrest⟩ := List.ne_and_not_mem_of_not_mem_cons h
    by_cases hquote : c = '\''
    · have hfirst : (single read).scan "'\"'\"'".toList = some (.single (read ++ [c]), []) := by
        simp [hquote, scan, next, enter, separator?, isActive]
      have happend := scan_append hfirst (ih hrest)
      simpa [escape, hquote] using happend
    · have hfirst : (single read).scan [c] = some (.single (read ++ [c]), []) := by
        simp [scan, next, hquote, Ne.symm hc]
      have happend := scan_append hfirst (ih hrest)
      simpa [escape, hquote] using happend

/-- A text between single quotes is a word. -/
theorem lex_quoted {cs : List Char} (h : '\x00' ∉ cs) :
    lex ('\'' :: (escape cs ++ ['\''])) = some [.word (String.ofList cs) true] := by
  have hopen : Lexing.between.scan ['\''] = some (.single [], []) := by
    simp [Lexing.scan, Lexing.next, Lexing.enter, separator?]
  have hclose : (Lexing.single cs).scan ['\''] = some (.closed cs, []) := by
    simp [Lexing.scan, Lexing.next]
  have hread : (Lexing.single []).scan (escape cs) = some (.single cs, []) := Lexing.scan_escape h
  have hbody := Lexing.scan_append hread hclose
  have hscan := Lexing.scan_append hopen hbody
  exact lex_eq_some.mpr ⟨_, _, _, hscan, rfl, rfl⟩

/-- The text of a word. -/
def Token.text? : Token → Option String
  | word text _ => some text
  | _ => none

/-- The words of a text that has nothing else in it. -/
def split (text : String) : Option (List String) := do (← lex text.toList).mapM Token.text?

end TPUSwarm.Common.Shell

import TPUSwarm.Common.Runs
import TPUSwarm.Controller
import TPUSwarm.Store.History

/-!
# One program among calls of others

A session is a run of one program over the store. Before each of its operations, others may
make any number of calls, restricted as the case demands. The backend may answer anything.
-/

namespace TPUSwarm

open Common

/-- Only the calls of the HTTP API may be made. -/
def apiCall : Discretion := fun _ call => call.isApi = true

instance (store : SwarmStore) (call : Call) : Decidable (apiCall store call) :=
  inferInstanceAs (Decidable (call.isApi = true))

/-- No call may be made. -/
def noCall : Discretion := fun _ _ => False

instance (store : SwarmStore) (call : Call) : Decidable (noCall store call) := inferInstanceAs (Decidable False)

/-- One operation of a program, after calls of others. -/
inductive Answers (allowed : Discretion) : (op : Operation) → SwarmStore → op.Reply → SwarmStore → Prop
  | store {call now clock store mid outcome store'} (hothers : History allowed store mid)
      (hperform : call.perform (now.getD clock) mid = (outcome, store')) :
      Answers allowed (.store call now) store outcome store'
  | listJobs {store store' outcome} (hothers : History allowed store store') :
      Answers allowed .listJobs store outcome store'
  | launch {store store' task spec priority outcome} (hothers : History allowed store store') :
      Answers allowed (.launch task spec priority) store outcome store'

/-- A run of an action among calls of others. -/
abbrev Session {α : Type} (allowed : Discretion) (program : Effect α) :
    SwarmStore → List (Sigma Operation.Reply) → Except PyError α → SwarmStore → Prop :=
  Action.Runs (Answers allowed) program

variable {allowed : Discretion} {store store' : SwarmStore} {trace : List (Sigma Operation.Reply)}

/-- Where no call may be made, nothing happens. -/
theorem History.of_noCall (h : History noCall store store') : store' = store :=
  h.invariant (I := fun s => s = store) (fun _ _ _ _ _ hallowed _ _ => hallowed.elim) rfl

/-- Every operation gets an answer. -/
theorem Answers.total (op : Operation) (store : SwarmStore) :
    ∃ (reply : op.Reply) (store' : SwarmStore), Answers allowed op store reply store' := by
  cases op with
  | store call now => exact ⟨_, _, .store .refl (rfl : call.perform (now.getD 0) store = _)⟩
  | listJobs => exact ⟨.ok [], store, .listJobs .refl⟩
  | launch task spec priority => exact ⟨.error ⟨.runtime, ""⟩, store, .launch .refl⟩

/-- A session of one call. -/
theorem session_callStore {call : Call} {now : Option Time} {outcome : Except PyError call.Result} :
    Session allowed (callStore call now) store trace outcome store' ↔ trace = [⟨.store call now, outcome⟩] ∧
      ∃ mid clock, History allowed store mid ∧ call.perform (now.getD clock) mid = (outcome, store') := by
  refine Prog.runs_issue.trans (and_congr_right fun _ => ⟨?_, ?_⟩)
  · rintro (⟨hothers, hperform⟩ | _)
    exact ⟨_, _, hothers, hperform⟩
  · rintro ⟨mid, clock, hothers, hperform⟩
    exact .store hothers hperform

/-- A session of one call that returns. -/
theorem session_callStore_ok {call : Call} {now : Option Time} {result : call.Result} :
    Session allowed (callStore call now) store trace (.ok result) store' ↔ trace = [⟨.store call now, .ok result⟩] ∧
      ∃ mid clock, History allowed store mid ∧ call.run (now.getD clock) mid = .ok (result, store') := by
  refine session_callStore.trans (and_congr_right fun _ => exists_congr fun mid => exists_congr fun clock =>
    and_congr_right fun _ => ⟨fun hperform => ?_, fun hrun => by rw [Call.perform, hrun]⟩)
  rcases Call.perform_cases hperform with ⟨e, heq, -⟩ | ⟨returned, heq, hrun⟩
  · cases heq
  · cases heq
    exact hrun

/-- The outcome of the next operation, with the calls of others before it. -/
inductive Choice
  | store (others : List (Call × Time)) (clock : Time)
  | listJobs (others : List (Call × Time)) (outcome : Except PyError (List ExecutorJob))
  | launch (others : List (Call × Time)) (outcome : Except PyError ExecutorJob)

/-- What a choice leads to, if the calls of others are allowed. -/
def answer (allowed : Discretion) [∀ s call, Decidable (allowed s call)] :
    (op : Operation) → Choice → SwarmStore → Option (op.Reply × SwarmStore)
  | .store call now, .store others clock, store =>
    if store.Permits allowed others then some (call.perform (now.getD clock) (store.after others)) else none
  | .listJobs, .listJobs others outcome, store =>
    if store.Permits allowed others then some (outcome, store.after others) else none
  | .launch _ _ _, .launch others outcome, store =>
    if store.Permits allowed others then some (outcome, store.after others) else none
  | _, _, _ => none

/-- A choice is an answer. -/
theorem answers_of_answer [∀ s call, Decidable (allowed s call)] (op : Operation) (choice : Choice)
    (store : SwarmStore) (reply : op.Reply) (store' : SwarmStore)
    (h : answer allowed op choice store = some (reply, store')) : Answers allowed op store reply store' := by
  cases op with
  | store call now =>
    cases choice with
    | store others clock =>
      obtain ⟨hpermits, h⟩ := Option.ite_none_right_eq_some.mp h
      exact .store (SwarmStore.history_after hpermits) (Option.some.inj h)
    | _ => cases h
  | listJobs =>
    cases choice with
    | listJobs others outcome =>
      obtain ⟨hpermits, h⟩ := Option.ite_none_right_eq_some.mp h
      cases h
      exact .listJobs (SwarmStore.history_after hpermits)
    | _ => cases h
  | launch task spec priority =>
    cases choice with
    | launch others outcome =>
      obtain ⟨hpermits, h⟩ := Option.ite_none_right_eq_some.mp h
      cases h
      exact .launch (SwarmStore.history_after hpermits)
    | _ => cases h

/-- The session that choices lead to. -/
def playSession {α : Type} (allowed : Discretion) [∀ s call, Decidable (allowed s call)]
    (program : Prog Operation Operation.Reply α)
    (store : SwarmStore) (choices : List Choice) : Option (List (Sigma Operation.Reply) × α × SwarmStore) :=
  Prog.follow (answer allowed) choices program store

/-- The store where choices that end early leave off. -/
def playPart {α : Type} (allowed : Discretion) [∀ s call, Decidable (allowed s call)]
    (program : Prog Operation Operation.Reply α)
    (store : SwarmStore) (choices : List Choice) : Option SwarmStore :=
  Prog.followPart (answer allowed) choices program store

/-- What choices that end early lead to is where the program may stop. -/
theorem stops_of_playPart {α : Type} [∀ s call, Decidable (allowed s call)]
    {program : Prog Operation Operation.Reply α}
    {choices : List Choice} (h : playPart allowed program store choices = some store') :
    ∃ trace, program.Stops (Answers allowed) store trace store' := by
  refine Prog.stops_of_followPart ?_ h
  exact fun op choice s reply s' => answers_of_answer op choice s reply s'

/-- What choices lead to is a run. -/
theorem runs_of_playSession {α : Type} [∀ s call, Decidable (allowed s call)]
    {program : Prog Operation Operation.Reply α}
    {choices : List Choice} {outcome : α}
    (h : playSession allowed program store choices = some (trace, outcome, store')) :
    program.Runs (Answers allowed) store trace outcome store' := by
  refine Prog.runs_of_follow ?_ h
  exact fun op choice s reply s' => answers_of_answer op choice s reply s'

end TPUSwarm

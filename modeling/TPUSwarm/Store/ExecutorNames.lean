import TPUSwarm.Store.Tasks

/-!
# Executor job names

SkyPilot uses job names in cloud resource names, so a name has to be short, in a small
alphabet and anchored at both ends, whatever the task id is. The slug is for readers; it is
the digest at the end that keeps two task ids apart.
-/

namespace TPUSwarm

/-- The characters a cloud resource name may have. -/
def cloudChar (c : Char) : Bool := c.isLower || c.isDigit || c = '-'

/-- A name that can be part of a cloud resource name. -/
structure CloudSafe (name : String) : Prop where
  length_le : name.toList.length ≤ 63
  chars : ∀ c ∈ name.toList, cloudChar c
  starts : ∃ c ∈ name.toList.head?, c.isLower
  ends : name.toList.getLast? ≠ some '-'

/-- The digits of a digest may occur in cloud resource names. -/
theorem cloudChar_of_hex {c : Char} (hc : c ∈ "0123456789abcdef".toList) : cloudChar c ∧ c ≠ '-' := by
  have hall : ("0123456789abcdef".toList.all fun d => cloudChar d && d ≠ '-') = true := by decide
  simpa using List.all_eq_true.mp hall c hc

/-- Sanitising leaves only characters of cloud resource names. -/
theorem cloudChar_of_mem_sanitize {inRun : Bool} {s : List Char} {c : Char}
    (hc : c ∈ sanitize inRun s) : cloudChar c := by
  induction s generalizing inRun with
  | nil => simp [sanitize] at hc
  | cons d rest ih =>
    simp only [sanitize] at hc
    split_ifs at hc with hkept hrun
    · rcases List.mem_cons.mp hc with rfl | hrest
      · exact hkept
      · exact ih hrest
    · exact ih hc
    · rcases List.mem_cons.mp hc with rfl | hrest
      · decide
      · exact ih hrest

/-- Stripping only removes characters. -/
theorem mem_of_mem_stripHyphens {s : List Char} {c : Char} (hc : c ∈ stripHyphens s) : c ∈ s := by
  have hback := (List.dropWhile_sublist _).subset (List.mem_reverse.mp hc)
  exact (List.dropWhile_sublist _).subset (List.mem_reverse.mp hback)

namespace SwarmStore

/-- The readable part of an executor job name, before it is cut. -/
def slugOf (taskId : String) : List Char :=
  let slug := stripHyphens (sanitize false (lower taskId).toList)
  if slug = [] then "task".toList else slug

/-- The digits an executor job name ends in. -/
def digestOf (taskId : String) : List Char := (Sha256.hexdigest taskId).toList.take 10

/-- A name is the prefix, the slug and the digest of the id. -/
theorem executorName_toList (taskId : String) : (executorName taskId).toList =
    "tpuswarm-".toList ++ (slugOf taskId).take 42 ++ ['-'] ++ digestOf taskId := by
  simp [executorName, slugOf, digestOf]

/-- A digest has ten digits. -/
theorem digestOf_length (taskId : String) : (digestOf taskId).length = 10 := by
  simp [digestOf, Sha256.hexdigest_length]

/-- The digits of a digest are hexadecimal. -/
theorem hex_of_mem_digestOf {taskId : String} {c : Char} (hc : c ∈ digestOf taskId) :
    c ∈ "0123456789abcdef".toList :=
  Sha256.hexdigest_hex (List.mem_of_mem_take hc)

/-- The slug has only characters of cloud resource names, also where nothing of the id is left. -/
theorem cloudChar_of_mem_slugOf {taskId : String} {c : Char} (hc : c ∈ slugOf taskId) :
    cloudChar c := by
  simp only [slugOf] at hc
  split_ifs at hc with hempty
  · have hall : "task".toList.all cloudChar = true := by decide
    exact List.all_eq_true.mp hall c hc
  · exact cloudChar_of_mem_sanitize (mem_of_mem_stripHyphens hc)

/-- Every character of an executor job name is allowed. -/
theorem cloudChar_of_mem_executorName {taskId : String} {c : Char}
    (hc : c ∈ (executorName taskId).toList) : cloudChar c := by
  have hlead : "tpuswarm-".toList.all cloudChar = true := by decide
  rw [executorName_toList] at hc
  simp only [List.mem_append] at hc
  rcases hc with ((hstart | hslug) | hhyphen) | hdigest
  · exact List.all_eq_true.mp hlead c hstart
  · exact cloudChar_of_mem_slugOf (List.mem_of_mem_take hslug)
  · rw [List.mem_singleton.mp hhyphen]
    decide
  · exact (cloudChar_of_hex (hex_of_mem_digestOf hdigest)).1

/-- An executor job name ends in a digit of its digest. -/
theorem getLast?_executorName (taskId : String) :
    ∃ c ∈ digestOf taskId, (executorName taskId).toList.getLast? = some c := by
  have hne : digestOf taskId ≠ [] := by
    intro hnil
    simpa [hnil] using digestOf_length taskId
  refine ⟨_, List.getLast_mem hne, ?_⟩
  rw [executorName_toList, List.getLast?_append, List.getLast?_eq_some_getLast hne]
  rfl

/-- Whatever the task id, its executor job name can be part of a cloud resource name. -/
theorem executorName_safe (taskId : String) : CloudSafe (executorName taskId) where
  length_le := by
    have hslug : ((slugOf taskId).take 42).length ≤ 42 := List.length_take_le 42 _
    have hlead : "tpuswarm-".toList.length = 9 := by decide
    rw [executorName_toList]
    simp only [List.length_append, List.length_singleton, digestOf_length, hlead]
    omega
  chars := fun _ => cloudChar_of_mem_executorName
  starts := by
    rw [executorName_toList]
    exact ⟨'t', rfl, by decide⟩
  ends := by
    obtain ⟨c, hc, hlast⟩ := getLast?_executorName taskId
    intro hhyphen
    have heq : c = '-' := Option.some.inj (hlast.symm.trans hhyphen)
    exact (cloudChar_of_hex (hex_of_mem_digestOf hc)).2 heq

/-- Equal names carry equal digests: the digest has a fixed length and stands last. -/
theorem digestOf_eq_of_executorName_eq {a b : String} (heq : executorName a = executorName b) :
    digestOf a = digestOf b := by
  have hlists := congrArg String.toList heq
  rw [executorName_toList, executorName_toList] at hlists
  apply (List.append_inj' hlists _).2
  rw [digestOf_length, digestOf_length]

/-- Executor job names are safe in the cloud, and only equal digests can make two of them equal. -/
theorem executorName_safe_and_distinct :
    (∀ taskId, CloudSafe (executorName taskId)) ∧
      ∀ a b, executorName a = executorName b →
        (Sha256.hexdigest a).toList.take 10 = (Sha256.hexdigest b).toList.take 10 :=
  ⟨executorName_safe, fun _ _ => digestOf_eq_of_executorName_eq⟩

end SwarmStore

end TPUSwarm

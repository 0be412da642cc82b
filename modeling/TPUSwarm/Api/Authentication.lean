import TPUSwarm.Api.Endpoints
import Mathlib.Data.List.TakeWhile

/-!
# Who may use the API

The application compares the credential of the header with its token. The name of the scheme may be in any case, and
a token that is not ASCII is never accepted.
-/

namespace TPUSwarm

/-- A header presents a token: after a scheme that is `bearer` in any case, and a space. -/
def Presents (token : String) (authorization : Option String) : Prop :=
  ∃ scheme, lower scheme = "bearer" ∧
    (authorization = some (scheme ++ " " ++ token) ∨ authorization = some scheme ∧ token = "")

/-- No text in another case has fewer spaces. -/
theorem space_mem_lower {s : String} (h : ' ' ∈ s.toList) : ' ' ∈ (lower s).toList := by
  have hspace : (if ' '.isUpper then [' '.toLower] else ((specialLower.lookup ' ').map String.toList).getD [' ']) =
    [' '] := by
    decide +kernel
  rw [lower, String.toList_ofList]
  refine List.mem_flatMap.mpr ⟨' ', h, ?_⟩
  rw [hspace]
  exact List.mem_singleton_self ' '

/-- A scheme that is `bearer` in any case has no space. -/
theorem bearer_no_space {scheme : String} (h : lower scheme = "bearer") :
    ∀ c ∈ scheme.toList, decide (c ≠ ' ') = true := by
  rintro c hc
  refine decide_eq_true fun heq => ?_
  have hmem := space_mem_lower (heq ▸ hc)
  rw [h] at hmem
  exact absurd hmem (by decide)

/-- A text up to its first space, and what is behind it. -/
theorem partitionSpace_append {s t : String} (h : ∀ c ∈ s.toList, decide (c ≠ ' ') = true) :
    partitionSpace (s ++ " " ++ t) = (s, t) := by
  have hlist : (s ++ " " ++ t).toList = s.toList ++ ' ' :: t.toList := by simp
  unfold partitionSpace
  rw [hlist, List.takeWhile_append_of_pos h, List.dropWhile_append_of_pos h]
  simp

/-- A text without a space is all there is before one. -/
theorem partitionSpace_self {s : String} (h : ∀ c ∈ s.toList, decide (c ≠ ' ') = true) :
    partitionSpace s = (s, "") := by
  unfold partitionSpace
  rw [List.takeWhile_eq_self_iff.mpr h, List.dropWhile_eq_nil_iff.mpr h, String.ofList_toList]
  rfl

/-- The parts of a text make it up, with the space between them if there is one. -/
theorem partitionSpace_parts {text scheme credential : String} (h : partitionSpace text = (scheme, credential)) :
    text = scheme ++ " " ++ credential ∨ text = scheme ∧ credential = "" := by
  have hsplit := List.takeWhile_append_dropWhile (p := fun c => decide (c ≠ ' ')) (l := text.toList)
  obtain ⟨rfl, rfl⟩ := Prod.mk.inj h
  cases hrest : text.toList.dropWhile (fun c => decide (c ≠ ' ')) with
  | nil =>
    rw [hrest, List.append_nil] at hsplit
    exact Or.inr ⟨by rw [hsplit, String.ofList_toList], rfl⟩
  | cons c rest =>
    have hc : decide (c ≠ ' ') = false := by
      have hhead := List.head?_dropWhile_not (fun c => decide (c ≠ ' ')) text.toList
      rwa [hrest] at hhead
    obtain rfl : c = ' ' := of_not_not (of_decide_eq_false hc)
    rw [hrest] at hsplit
    left
    apply String.toList_injective
    simp only [String.toList_append, String.toList_ofList, List.append_assoc, List.tail_cons]
    exact hsplit.symm

/-- Two texts are the same for a digest if they are the same, and ASCII. -/
theorem compareDigest_eq_ok {a b : String} : compareDigest a b = .ok true ↔ isAscii b = true ∧ a = b := by
  unfold compareDigest
  constructor
  · intro h
    split at h
    · rename_i hascii
      exact ⟨(Bool.and_eq_true_iff.mp hascii).2, of_decide_eq_true (Except.ok.inj h)⟩
    · cases h
  · rintro ⟨hascii, rfl⟩
    simp [hascii]

/-- What the application asks of a header. -/
theorem authenticate_some {token : String} {authorization : Option String} :
    authenticate (some token) authorization = .ok () ↔
      lower (partitionSpace (authorization.getD "")).1 = "bearer" ∧
        compareDigest (partitionSpace (authorization.getD "")).2 token = .ok true := by
  unfold authenticate
  dsimp only
  by_cases hscheme : lower (partitionSpace (authorization.getD "")).1 = "bearer"
  · rw [if_neg (not_not.mpr hscheme)]
    cases hsame : compareDigest (partitionSpace (authorization.getD "")).2 token with
    | error e => simp
    | ok same => cases same <;> simp [hscheme]
  · simp [hscheme]

/-- A token is accepted if it is ASCII, and the header presents it. -/
theorem authenticate_eq_ok {token : String} {authorization : Option String} :
    authenticate (some token) authorization = .ok () ↔ isAscii token = true ∧ Presents token authorization := by
  rw [authenticate_some, compareDigest_eq_ok]
  constructor
  · rintro ⟨hscheme, hascii, hcredential⟩
    refine ⟨hascii, _, hscheme, ?_⟩
    cases authorization with
    | none => exact absurd hscheme (by decide +kernel)
    | some text =>
      refine (partitionSpace_parts (Prod.mk.eta (p := partitionSpace text)).symm).imp (fun h => ?_) fun h => ?_
      · exact congrArg some (h.trans (by rw [← hcredential]; rfl))
      · exact ⟨congrArg some h.1, hcredential ▸ h.2⟩
  · rintro ⟨hascii, scheme, hscheme, rfl | ⟨rfl, rfl⟩⟩
    · rw [Option.getD_some, partitionSpace_append (bearer_no_space hscheme)]
      exact ⟨hscheme, hascii, rfl⟩
    · rw [Option.getD_some, partitionSpace_self (bearer_no_space hscheme)]
      exact ⟨hscheme, hascii, rfl⟩

end TPUSwarm

import Mathlib.Data.Option.Basic
import ResourceLang.Proofs.Ty.Construction

/-!
# Refusal — which members are refused, and why

Members of a discriminated object are taken one by one, as long as each declares a text for the discriminator that is
new. So they are refused exactly if one of them declares no text or two declare the same one, and the reason is the
first member that does not fit in with those before it.

* **`misfit_of_refused`**, **`refused_of_misfit`** — why members are refused.
* **`exists_collected_iff`** — which members are collected.
-/

namespace ResourceLang

/-! ## Members that fit together -/

/-- Each member declares a text for the discriminator, and no two declare the same one. -/
structure DeclaredApart (discriminator : String) (members : List ObjectTy) : Prop where
  declared : ∀ m ∈ members, m.discriminatorValue? discriminator ≠ none
  apart : (members.map fun m => m.discriminatorValue? discriminator).Nodup

/-- Why a member does not fit in with those before it: it declares no text, or one that is taken. -/
inductive Misfit (union discriminator : String) (earlier : List ObjectTy) (m : ObjectTy) : Cause → Prop where
  | silent (h : m.discriminatorValue? discriminator = none) :
      Misfit union discriminator earlier m (.missingDiscriminator m.name discriminator)
  | repeated {key : String} (h : m.discriminatorValue? discriminator = some key) {m' : ObjectTy}
      (hm' : m' ∈ earlier) (h' : m'.discriminatorValue? discriminator = some key) :
      Misfit union discriminator earlier m (.duplicateMember union key)

/-- The first member that does not fit in with those before it, and why. -/
def FirstMisfit (union discriminator : String) (members : List ObjectTy) (cause : Cause) : Prop :=
  ∃ earlier m later, members = earlier ++ m :: later ∧ DeclaredApart discriminator earlier ∧
    Misfit union discriminator earlier m cause

section Members

variable {union discriminator : String}

theorem DeclaredApart.perm {ms ms' : List ObjectTy} (h : DeclaredApart discriminator ms) (hperm : ms.Perm ms') :
    DeclaredApart discriminator ms' where
  declared m hm := h.declared m (hperm.mem_iff.mpr hm)
  apart := (hperm.map _).nodup_iff.mp h.apart

/-- A member that does not fit in with those before it does not fit in at all. -/
theorem FirstMisfit.not_declaredApart {members : List ObjectTy} {cause : Cause}
    (h : FirstMisfit union discriminator members cause) : ¬DeclaredApart discriminator members := by
  obtain ⟨earlier, m, later, rfl, -, hmisfit⟩ := h
  intro hfit
  cases hmisfit with
  | silent hm => exact hfit.declared m (List.mem_append_right _ List.mem_cons_self) hm
  | repeated hm hm' hkey =>
      have hapart := hfit.apart
      rw [List.map_append, List.nodup_append] at hapart
      refine hapart.2.2 _ (List.mem_map_of_mem hm') _ (List.mem_map_of_mem List.mem_cons_self) ?_
      rw [hm, hkey]

namespace KeyedMembers

variable {members : Keyed String ObjectTy}

/-- The keys are the texts that the members declare. -/
theorem map_keys (h : KeyedMembers discriminator members) :
    members.keys.map some = members.values.map fun m => m.discriminatorValue? discriminator := by
  rw [Keyed.keys, Keyed.values, List.map_map, List.map_map]
  exact List.map_congr_left fun e he => (h.declared e he).symm

theorem declaredApart (h : KeyedMembers discriminator members) : DeclaredApart discriminator members.values where
  declared m hm hnone := by
    obtain ⟨e, he, rfl⟩ := List.mem_map.mp hm
    rw [h.declared e he] at hnone
    exact nomatch hnone
  apart := by
    rw [← h.map_keys]
    refine List.Nodup.map (Option.some_injective _) (List.Pairwise.imp ?_ h.ascending)
    intro a b hlt heq
    exact String.lt_irrefl b (heq ▸ hlt)

end KeyedMembers

/-! ## What is collected and what is refused -/

/-- **Members are refused** for the first of them that does not fit in with those before it. Before each step, the
    members that have been seen are the earlier ones, under the texts they declare. -/
theorem misfit_of_refused {earlier ms : List ObjectTy} {seen : Keyed String ObjectTy} {e : Error}
    (hseen : KeyedMembers discriminator seen) (hvalues : seen.values.Perm earlier)
    (h : collectMembers union discriminator seen ms = .error e) :
    ∃ cause, e = .ofCause cause ∧ FirstMisfit union discriminator (earlier ++ ms) cause := by
  induction ms generalizing earlier seen with
  | nil => exact nomatch h
  | cons m rest ih =>
      have hearlier : DeclaredApart discriminator earlier := hseen.declaredApart.perm hvalues
      rw [collectMembers] at h
      cases hm : m.discriminatorValue? discriminator with
      | none =>
          rw [hm] at h
          exact ⟨_, (Except.error.inj h).symm, earlier, m, rest, rfl, hearlier, .silent hm⟩
      | some key =>
          simp only [hm] at h
          by_cases htaken : seen.contains key = true
          · rw [if_pos htaken] at h
            -- the key is the text that an earlier member declares
            obtain ⟨entry, hentry, rfl⟩ := List.mem_map.mp (Keyed.contains_iff_mem_keys.mp htaken)
            have hmem : entry.2 ∈ earlier := hvalues.mem_iff.mp (List.mem_map_of_mem hentry)
            exact ⟨_, (Except.error.inj h).symm, earlier, m, rest, rfl, hearlier,
              .repeated hm hmem (hseen.declared entry hentry)⟩
          · rw [if_neg htaken] at h
            have hnew : seen.contains key = false := Bool.not_eq_true _ ▸ htaken
            have hadded : (seen.insertAscending key m).values.Perm (earlier ++ [m]) :=
              calc (seen.insertAscending key m).values.Perm (m :: seen.values) :=
                    (Keyed.perm_insertAscending hnew m).map Prod.snd
                List.Perm _ (m :: earlier) := hvalues.cons m
                List.Perm _ (earlier ++ [m]) := (List.perm_append_singleton m earlier).symm
            rw [List.append_cons]
            exact ih (hseen.insertAscending hm) hadded h

/-- **Members are collected** exactly if each declares a text of its own. -/
theorem exists_collected_iff (union : String) {ms : List ObjectTy} :
    (∃ found, collectMembers union discriminator .empty ms = .ok found) ↔ DeclaredApart discriminator ms := by
  constructor
  · rintro ⟨found, h⟩
    obtain ⟨hkeyed, hvalues⟩ := keyed_of_collected h
    exact hkeyed.declaredApart.perm hvalues
  · intro hfit
    cases h : collectMembers union discriminator .empty ms with
    | ok found => exact ⟨found, rfl⟩
    | error e =>
        obtain ⟨cause, -, hmisfit⟩ := misfit_of_refused (KeyedMembers.empty discriminator) (.refl []) h
        exact absurd hfit hmisfit.not_declaredApart

/-- Of members that do not fit together some member is the first that does not fit in. -/
theorem exists_misfit (union : String) {ms : List ObjectTy} (h : ¬DeclaredApart discriminator ms) :
    ∃ cause, FirstMisfit union discriminator ms cause := by
  cases hcollect : collectMembers union discriminator .empty ms with
  | ok found => exact absurd ((exists_collected_iff union).mp ⟨found, hcollect⟩) h
  | error e =>
      obtain ⟨cause, -, hmisfit⟩ := misfit_of_refused (KeyedMembers.empty discriminator) (.refl []) hcollect
      exact ⟨cause, hmisfit⟩

/-- Collecting members is collecting some of them and then the others. -/
theorem collectMembers_append (seen : Keyed String ObjectTy) (ms later : List ObjectTy) :
    collectMembers union discriminator seen (ms ++ later) =
      (collectMembers union discriminator seen ms).bind fun found =>
        collectMembers union discriminator found later := by
  induction ms generalizing seen with
  | nil => rfl
  | cons m rest ih =>
      rw [List.cons_append, collectMembers, collectMembers]
      cases m.discriminatorValue? discriminator with
      | none => rfl
      | some key =>
          show (if seen.contains key then _ else _) = Except.bind (if seen.contains key then _ else _) _
          by_cases htaken : seen.contains key = true
          · rw [if_pos htaken, if_pos htaken]
            rfl
          · rw [if_neg htaken, if_neg htaken]
            exact ih _

/-- The first member that does not fit in with those before it is the reason of the refusal. -/
theorem refused_of_misfit {ms : List ObjectTy} {cause : Cause} (h : FirstMisfit union discriminator ms cause) :
    collectMembers union discriminator .empty ms = .error (.ofCause cause) := by
  obtain ⟨earlier, m, later, rfl, hearlier, hmisfit⟩ := h
  obtain ⟨found, hfound⟩ := (exists_collected_iff union).mpr hearlier
  obtain ⟨hkeyed, hvalues⟩ := keyed_of_collected hfound
  rw [collectMembers_append, hfound]
  show collectMembers union discriminator found (m :: later) = .error (.ofCause cause)
  rw [collectMembers]
  cases hmisfit with
  | silent hm => rw [hm]
  | repeated hm hm' hdeclared =>
      obtain ⟨entry, hentry, rfl⟩ := List.mem_map.mp (hvalues.mem_iff.mpr hm')
      obtain rfl := Option.some.inj ((hkeyed.declared entry hentry).symm.trans hdeclared)
      have htaken : found.contains entry.1 = true := Keyed.contains_iff_mem_keys.mpr (List.mem_map_of_mem hentry)
      simp only [hm]
      rw [if_pos htaken]

end Members

end ResourceLang

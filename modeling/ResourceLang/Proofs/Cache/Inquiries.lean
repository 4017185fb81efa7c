import ResourceLang.Catalog.Cache
import ResourceLang.Proofs.Agreement
import ResourceLang.Proofs.Keyed
import ResourceLang.Ty.Equality

/-!
# Inquiries — requests to a shared cache, one atomic step after the other

Callers share a cache without holding it for the whole of a request. An inquiry reads the cache, asks the
provider if nothing was found, and then settles the answer; between any two of these steps other inquiries
may take theirs, and the cache may be cleared. `Traffic` is the cache with all inquiries ever made, finished
ones included, and a `run` is any list of actions.

The invariant has a part for the cache (`Cache.Sound`: keys are pairwise different, each entry is what the
provider answers for its key) and a part for each inquiry (`Inquiry.Sound`: what was found or handed out
agrees with the provider).

* **`run_sound`** — the invariant holds in every reachable state.
* **`remembered_of_handed`** — until the cache is cleared it holds every type that was handed out.
* **`answered_of_three_steps`** — an inquiry is over after three steps of its own.
* **`run_uninterrupted`** — an inquiry that nothing interrupts is `Cache.answer`.
-/

namespace ResourceLang

/-- How far a request to a cache has come. -/
inductive Inquiry where
  /-- The cache is to be read. -/
  | asking (request : Request)
  /-- The cache had no answer; the provider is to be asked. -/
  | missed (request : Request)
  /-- The provider has answered; the answer is to be settled. -/
  | resolved (request : Request) (found : ResourceTy)
  /-- The caller has an answer or a refusal. -/
  | answered (request : Request) (answer : Except Error ResourceTy)

namespace Inquiry

/-- What was asked. -/
def request : Inquiry → Request
  | asking request => request
  | missed request => request
  | resolved request _ => request
  | answered request _ => request

/-- What the caller was handed, if the inquiry is over. -/
def answer? : Inquiry → Option (Request × Except Error ResourceTy)
  | answered request answer => some (request, answer)
  | _ => none

/-- The next step of an inquiry, and the cache after it. -/
def advance (inner : Provider) (c : Cache) : Inquiry → Inquiry × Cache
  | asking request =>
    match c.find? request with
    | some remembered => (answered request (.ok remembered), c)
    | none => (missed request, c)
  | missed request =>
    match inner request.scope request.reference with
    | .ok found => (resolved request found, c)
    | .error e => (answered request (.error e), c)
  | resolved request found =>
    (answered request (.ok (c.settle request found).1), (c.settle request found).2)
  | answered request answer => (answered request answer, c)

end Inquiry

/-- A cache and the inquiries that were made to it, in the order in which they began. -/
structure Traffic where
  cache : Cache
  inquiries : List Inquiry

/-- What can happen next. -/
inductive Traffic.Action where
  /-- A new inquiry begins. -/
  | ask (request : Request)
  /-- The inquiry at the given place takes its next step. -/
  | advance (caller : Nat)
  /-- The cache is cleared. -/
  | clear

namespace Traffic

/-- A cache that nobody has used. -/
def start : Traffic := ⟨.empty, []⟩

/-- The state after an action. -/
def step (inner : Provider) (s : Traffic) : Action → Traffic
  | .ask request => ⟨s.cache, s.inquiries ++ [.asking request]⟩
  | .advance i =>
    match s.inquiries[i]? with
    | some inquiry =>
      ⟨(inquiry.advance inner s.cache).2, s.inquiries.set i (inquiry.advance inner s.cache).1⟩
    | none => s
  | .clear => ⟨.empty, s.inquiries⟩

/-- The state after some actions. -/
def run (inner : Provider) (s : Traffic) (actions : List Action) : Traffic :=
  actions.foldl (step inner) s

/-- What the caller at place `i` was handed, if its inquiry is over. -/
def answer? (s : Traffic) (i : Nat) : Option (Request × Except Error ResourceTy) :=
  s.inquiries[i]?.bind Inquiry.answer?

end Traffic

/-! ## Agreement with the provider -/

/-- Two answers agree: equal types, or one refusal. -/
abbrev AnswersAgree : Except Error ResourceTy → Except Error ResourceTy → Prop :=
  Agree fun a b => (a == b) = true

/-- The provider finds equal types under equal references; refusals may be worded differently. -/
def Provider.Congruent (p : Provider) : Prop :=
  ∀ (scope : Scope) (r r' : Reference) (a : ResourceTy), (r == r') = true → p scope r = .ok a →
    ∃ a', p scope r' = .ok a' ∧ (a == a') = true

/-- The keys are pairwise different, and each entry is what the provider answers for its key. -/
structure Cache.Sound (inner : Provider) (c : Cache) : Prop where
  distinct : c.answers.DistinctKeys
  resolved : ∀ e ∈ c.answers.entries, inner e.1.scope e.1.reference = .ok e.2

/-- What an inquiry has found or handed out agrees with the provider. -/
inductive Inquiry.Sound (inner : Provider) : Inquiry → Prop where
  | asking (r : Request) : Sound inner (.asking r)
  | missed (r : Request) : Sound inner (.missed r)
  | resolved {r : Request} {found : ResourceTy} (h : inner r.scope r.reference = .ok found) :
      Sound inner (.resolved r found)
  | answered {r : Request} {answer : Except Error ResourceTy}
      (h : AnswersAgree answer (inner r.scope r.reference)) : Sound inner (.answered r answer)

/-- The cache and every inquiry are sound. -/
structure Traffic.Sound (inner : Provider) (s : Traffic) : Prop where
  cache : s.cache.Sound inner
  inquiries : ∀ inquiry ∈ s.inquiries, inquiry.Sound inner

/-! ## The steps of one inquiry -/

namespace Cache

theorem sound_empty (inner : Provider) : Cache.empty.Sound inner :=
  ⟨Keyed.distinctKeys_empty, nofun⟩

/-- A remembered answer agrees with the provider's answer to any equal request. -/
theorem Sound.find?_agree {inner : Provider} {c : Cache} (hc : c.Sound inner)
    (hinner : inner.Congruent) {r : Request} {a : ResourceTy} (h : c.find? r = some a) :
    AnswersAgree (.ok a) (inner r.scope r.reference) := by
  obtain ⟨k, hmem, hk⟩ := Keyed.exists_entry_of_get? h
  obtain ⟨hscope, hreference⟩ := (Request.beq_iff r k).mp hk
  have hentry : inner k.scope k.reference = .ok a := hc.resolved (k, a) hmem
  obtain ⟨a', ha', heq⟩ := hinner k.scope k.reference r.reference a (BEq.symm hreference) hentry
  rw [hscope, ha']
  exact .ok heq

theorem settle_of_find?_eq_none {c : Cache} {r : Request} (h : c.find? r = none)
    (found : ResourceTy) : c.settle r found = (found, ⟨c.answers.insert r found⟩) := by
  rw [settle, h]

theorem settle_of_find?_eq_some {c : Cache} {r : Request} {a : ResourceTy} (h : c.find? r = some a)
    (found : ResourceTy) : c.settle r found = (a, c) := by
  rw [settle, h]

theorem prefix_settle (c : Cache) (r : Request) (found : ResourceTy) :
    c.answers.entries <+: (c.settle r found).2.answers.entries := by
  cases h : c.find? r with
  | some a =>
      simp only [settle_of_find?_eq_some h, List.prefix_refl]
  | none =>
      rw [settle_of_find?_eq_none h]
      show c.answers.entries <+: (c.answers.insert r found).entries
      rw [Keyed.entries_insert_of_get?_eq_none h]
      exact List.prefix_append _ _

/-- What settling hands out is what the cache then holds. -/
theorem find?_settle (c : Cache) (r : Request) (found : ResourceTy) :
    (c.settle r found).2.find? r = some (c.settle r found).1 := by
  cases h : c.find? r with
  | some a =>
      rw [settle_of_find?_eq_some h]
      exact h
  | none =>
      rw [settle_of_find?_eq_none h]
      show (c.answers.insert r found).get? r = some found
      rw [Keyed.get?_insert, if_pos (BEq.refl r)]

/-- Settling the provider's own answer keeps the cache sound. -/
theorem Sound.settle {inner : Provider} {c : Cache} (hc : c.Sound inner) {r : Request}
    {found : ResourceTy} (hfound : inner r.scope r.reference = .ok found) :
    (c.settle r found).2.Sound inner := by
  cases h : c.find? r with
  | some a =>
      rw [settle_of_find?_eq_some h]
      exact hc
  | none =>
      -- the new entry stands at the end, and it is what the provider answers
      rw [settle_of_find?_eq_none h]
      refine ⟨Keyed.distinctKeys_insert hc.distinct r found, ?_⟩
      intro e he
      have he' : e ∈ (c.answers.insert r found).entries := he
      rw [Keyed.entries_insert_of_get?_eq_none h] at he'
      rcases List.mem_append.mp he' with hold | hnew
      · exact hc.resolved e hold
      · rw [List.mem_singleton.mp hnew]
        exact hfound

end Cache

namespace Inquiry

variable {inner : Provider} {c : Cache}

/-- A step keeps the cache and the inquiry sound. -/
theorem advance_sound (hinner : inner.Congruent) (hc : c.Sound inner) {inquiry : Inquiry}
    (hinquiry : inquiry.Sound inner) :
    (inquiry.advance inner c).1.Sound inner ∧ (inquiry.advance inner c).2.Sound inner := by
  cases hinquiry with
  | asking r =>
      rw [advance]
      cases h : c.find? r with
      | some a => exact ⟨.answered (hc.find?_agree hinner h), hc⟩
      | none => exact ⟨.missed r, hc⟩
  | missed r =>
      rw [advance]
      cases h : inner r.scope r.reference with
      | ok found => exact ⟨.resolved h, hc⟩
      | error e =>
          refine ⟨.answered ?_, hc⟩
          rw [h]
          exact .error e
  | @resolved r found h =>
      -- another inquiry may have settled meanwhile: what is handed out is what the cache now holds
      have hafter := hc.settle h
      exact ⟨.answered (hafter.find?_agree hinner (c.find?_settle r found)), hafter⟩
  | answered h => exact ⟨.answered h, hc⟩

/-- What was handed out answers what was asked. -/
theorem request_of_answer? {inquiry : Inquiry} {r : Request} {answer : Except Error ResourceTy}
    (h : inquiry.answer? = some (r, answer)) : inquiry.request = r := by
  cases inquiry with
  | answered r' answer' => exact (Prod.mk.inj (Option.some.inj h)).1
  | _ => exact nomatch h

/-- What was handed out agrees with the provider. -/
theorem Sound.agree_of_answer? {inquiry : Inquiry} (hinquiry : inquiry.Sound inner) {r : Request}
    {answer : Except Error ResourceTy} (h : inquiry.answer? = some (r, answer)) :
    AnswersAgree answer (inner r.scope r.reference) := by
  cases hinquiry with
  | answered hagree =>
      obtain ⟨rfl, rfl⟩ := Prod.mk.inj (Option.some.inj h)
      exact hagree
  | _ => exact nomatch h

/-- A step does not change what was asked. -/
theorem request_advance (inquiry : Inquiry) :
    (inquiry.advance inner c).1.request = inquiry.request := by
  cases inquiry with
  | asking r => rw [advance]; cases c.find? r <;> rfl
  | missed r => rw [advance]; cases inner r.scope r.reference <;> rfl
  | resolved r found => rfl
  | answered r answer => rfl

/-- A step only adds entries at the end of the cache. -/
theorem prefix_advance (inquiry : Inquiry) :
    c.answers.entries <+: (inquiry.advance inner c).2.answers.entries := by
  cases inquiry with
  | asking r => rw [advance]; cases c.find? r <;> exact List.prefix_refl _
  | missed r => rw [advance]; cases inner r.scope r.reference <;> exact List.prefix_refl _
  | resolved r found => exact c.prefix_settle r found
  | answered r answer => exact List.prefix_refl _

/-- **An answer handed out is the one that the cache then holds.** -/
theorem settled_by_advance {inquiry : Inquiry} (hopen : inquiry.answer? = none) {r : Request}
    {a : ResourceTy} (h : (inquiry.advance inner c).1.answer? = some (r, .ok a)) :
    (inquiry.advance inner c).2.find? r = some a := by
  cases inquiry with
  | asking r' =>
      rw [advance] at h ⊢
      cases hfind : c.find? r' with
      | some remembered =>
          rw [hfind] at h
          have hpair : (r', Except.ok remembered) = (r, .ok a) := Option.some.inj h
          obtain ⟨rfl, hok⟩ := Prod.mk.inj hpair
          rw [← Except.ok.inj hok]
          exact hfind
      | none =>
          rw [hfind] at h
          exact nomatch h
  | missed r' =>
      rw [advance] at h
      cases hinner : inner r'.scope r'.reference with
      | ok found => rw [hinner] at h; exact nomatch h
      | error e =>
          rw [hinner] at h
          exact nomatch (Prod.mk.inj (Option.some.inj h)).2
  | resolved r' found =>
      have hpair : (r', Except.ok (c.settle r' found).1) = (r, .ok a) := Option.some.inj h
      obtain ⟨rfl, hok⟩ := Prod.mk.inj hpair
      rw [← Except.ok.inj hok]
      exact c.find?_settle r' found
  | answered r' answer => exact nomatch hopen

/-- A step that changes the cache hands out a type. -/
theorem advance_cache_eq_or_ok (inner : Provider) (c : Cache) (inquiry : Inquiry) :
    (inquiry.advance inner c).2 = c ∨
      ∃ r a, (inquiry.advance inner c).1.answer? = some (r, .ok a) := by
  cases inquiry with
  | asking r => rw [advance]; cases c.find? r <;> exact Or.inl rfl
  | missed r => rw [advance]; cases inner r.scope r.reference <;> exact Or.inl rfl
  | resolved r found => exact Or.inr ⟨r, _, rfl⟩
  | answered r answer => exact Or.inl rfl

/-- The number of steps that an inquiry takes at most until it is over. -/
def remaining : Inquiry → Nat
  | asking _ => 3
  | missed _ => 2
  | resolved _ _ => 1
  | answered _ _ => 0

theorem remaining_le (inquiry : Inquiry) : inquiry.remaining ≤ 3 := by
  cases inquiry <;> rw [remaining] <;> omega

theorem remaining_advance (inner : Provider) (c : Cache) (inquiry : Inquiry) :
    (inquiry.advance inner c).1.remaining ≤ inquiry.remaining - 1 := by
  cases inquiry with
  | asking r =>
      rw [advance]
      cases c.find? r with
      | some remembered => exact Nat.zero_le 2
      | none => exact Nat.le_refl 2
  | missed r =>
      rw [advance]
      cases inner r.scope r.reference with
      | ok found => exact Nat.le_refl 1
      | error e => exact Nat.zero_le 1
  | resolved r found => exact Nat.le_refl 0
  | answered r answer => exact Nat.le_refl 0

theorem answer?_of_remaining_eq_zero {inquiry : Inquiry} (h : inquiry.remaining = 0) :
    ∃ x, inquiry.answer? = some x := by
  cases inquiry with
  | answered r answer => exact ⟨(r, answer), rfl⟩
  | _ => exact nomatch h

theorem advance_of_answer? {inquiry : Inquiry} {x : Request × Except Error ResourceTy}
    (h : inquiry.answer? = some x) : inquiry.advance inner c = (inquiry, c) := by
  cases inquiry with
  | answered r answer => rfl
  | _ => exact nomatch h

end Inquiry

namespace Traffic

variable {inner : Provider}

/-! ## What an action leaves alone -/

theorem run_nil (s : Traffic) : run inner s [] = s := rfl

theorem run_cons (s : Traffic) (action : Action) (actions : List Action) :
    run inner s (action :: actions) = run inner (step inner s action) actions := rfl

theorem run_append (s : Traffic) (actions later : List Action) :
    run inner s (actions ++ later) = run inner (run inner s actions) later :=
  List.foldl_append

theorem step_advance {s : Traffic} {i : Nat} {inquiry : Inquiry}
    (h : s.inquiries[i]? = some inquiry) :
    step inner s (.advance i) =
      ⟨(inquiry.advance inner s.cache).2, s.inquiries.set i (inquiry.advance inner s.cache).1⟩ := by
  rw [step, h]

theorem step_advance_of_none {s : Traffic} {i : Nat} (h : s.inquiries[i]? = none) :
    step inner s (.advance i) = s := by
  rw [step, h]

theorem answer?_step_advance {s : Traffic} {i : Nat} {inquiry : Inquiry}
    (h : s.inquiries[i]? = some inquiry) :
    (step inner s (.advance i)).answer? i = (inquiry.advance inner s.cache).1.answer? := by
  have hlt : i < s.inquiries.length := (List.getElem?_eq_some_iff.mp h).1
  rw [step_advance h, answer?, List.getElem?_set_self hlt]
  rfl

/-- The steps of one inquiry do not touch another one. -/
theorem answer?_step_of_ne (s : Traffic) {i j : Nat} (hij : j ≠ i) :
    (step inner s (.advance j)).answer? i = s.answer? i := by
  cases h : s.inquiries[j]? with
  | none => rw [step_advance_of_none h]
  | some inquiry => rw [step_advance h, answer?, List.getElem?_set_ne hij, answer?]

/-- What a caller was handed stays. -/
theorem answer?_step_of_some {s : Traffic} {i : Nat} {x : Request × Except Error ResourceTy}
    (h : s.answer? i = some x) (action : Action) : (step inner s action).answer? i = some x := by
  obtain ⟨inquiry, hget, hanswer⟩ := Option.bind_eq_some_iff.mp h
  cases action with
  | ask request =>
      have hlt : i < s.inquiries.length := (List.getElem?_eq_some_iff.mp hget).1
      rw [step, answer?, List.getElem?_append_left hlt]
      exact h
  | advance j =>
      by_cases hij : j = i
      · subst hij
        rw [answer?_step_advance hget, Inquiry.advance_of_answer? hanswer]
        exact hanswer
      · rw [answer?_step_of_ne s hij]
        exact h
  | clear => exact h

theorem answer?_ask_of_none {s : Traffic} {i : Nat} (h : s.answer? i = none) (request : Request) :
    (step inner s (.ask request)).answer? i = none := by
  show (s.inquiries ++ [Inquiry.asking request])[i]?.bind Inquiry.answer? = none
  by_cases hlt : i < s.inquiries.length
  · rw [List.getElem?_append_left hlt]
    exact h
  · rw [List.getElem?_append_right (by omega)]
    cases i - s.inquiries.length with
    | zero => rfl
    | succ n => rfl

theorem answer?_run_of_some {s : Traffic} {i : Nat} {x : Request × Except Error ResourceTy}
    (h : s.answer? i = some x) (actions : List Action) :
    (run inner s actions).answer? i = some x := by
  induction actions generalizing s with
  | nil => exact h
  | cons action rest ih => exact ih (answer?_step_of_some h action)

/-- Only clearing takes entries away. -/
theorem prefix_step (s : Traffic) {action : Action} (h : action ≠ .clear) :
    s.cache.answers.entries <+: (step inner s action).cache.answers.entries := by
  cases action with
  | ask request => exact List.prefix_refl _
  | advance i =>
      cases hget : s.inquiries[i]? with
      | none =>
          simp only [step_advance_of_none hget, List.prefix_refl]
      | some inquiry =>
          rw [step_advance hget]
          exact inquiry.prefix_advance
  | clear => exact absurd rfl h

theorem prefix_run (s : Traffic) {actions : List Action} (h : .clear ∉ actions) :
    s.cache.answers.entries <+: (run inner s actions).cache.answers.entries := by
  induction actions generalizing s with
  | nil => exact List.prefix_refl _
  | cons action rest ih =>
      have hne : .clear ≠ action := List.ne_of_not_mem_cons h
      have hrest : .clear ∉ rest := List.not_mem_of_not_mem_cons h
      exact (prefix_step s (Ne.symm hne)).trans (ih _ hrest)

/-! ## The invariant -/

theorem start_sound (inner : Provider) : start.Sound inner :=
  ⟨Cache.sound_empty inner, nofun⟩

/-- An action keeps the cache and every inquiry sound. -/
theorem step_sound (hinner : inner.Congruent) {s : Traffic} (hs : s.Sound inner)
    (action : Action) : (step inner s action).Sound inner := by
  cases action with
  | ask request =>
      refine ⟨hs.cache, ?_⟩
      intro inquiry hmem
      rcases List.mem_append.mp hmem with hold | hnew
      · exact hs.inquiries inquiry hold
      · rw [List.mem_singleton.mp hnew]
        exact .asking request
  | advance i =>
      cases hget : s.inquiries[i]? with
      | none =>
          rw [step_advance_of_none hget]
          exact hs
      | some inquiry =>
          rw [step_advance hget]
          obtain ⟨hafter, hcache⟩ := Inquiry.advance_sound hinner hs.cache
            (hs.inquiries inquiry (List.mem_of_getElem? hget))
          refine ⟨hcache, ?_⟩
          intro other hmem
          rcases List.mem_or_eq_of_mem_set hmem with hold | hnew
          · exact hs.inquiries other hold
          · exact hnew ▸ hafter
  | clear => exact ⟨Cache.sound_empty inner, hs.inquiries⟩

/-- The cache and every inquiry are sound whatever happens. -/
theorem run_sound (hinner : inner.Congruent) {s : Traffic} (hs : s.Sound inner)
    (actions : List Action) : (run inner s actions).Sound inner := by
  induction actions generalizing s with
  | nil => exact hs
  | cons action rest ih => exact ih (step_sound hinner hs action)

/-- Until the cache is cleared it holds every type that was handed out. -/
theorem remembered_of_handed {s : Traffic} {actions : List Action} (hclear : .clear ∉ actions)
    {i : Nat} (hopen : s.answer? i = none) {r : Request} {a : ResourceTy}
    (h : (run inner s actions).answer? i = some (r, .ok a)) :
    (run inner s actions).cache.find? r = some a := by
  induction actions generalizing s with
  | nil => exact nomatch hopen.symm.trans h
  | cons action rest ih =>
      have hne : .clear ≠ action := List.ne_of_not_mem_cons hclear
      have hrest : .clear ∉ rest := List.not_mem_of_not_mem_cons hclear
      rw [run_cons] at h ⊢
      cases hnow : (step inner s action).answer? i with
      | none => exact ih hrest hnow h
      | some x =>
          -- the inquiry ended with this action, so `action` is its own step
          have hx : x = (r, .ok a) :=
            Option.some.inj ((answer?_run_of_some hnow rest).symm.trans h)
          rw [hx] at hnow
          refine Keyed.get?_of_prefix (prefix_run _ hrest) ?_
          cases action with
          | ask request =>
              exact nomatch (answer?_ask_of_none hopen request).symm.trans hnow
          | advance j =>
              by_cases hij : j = i
              · subst hij
                cases hget : s.inquiries[j]? with
                | none =>
                    rw [step_advance_of_none hget] at hnow
                    exact nomatch hopen.symm.trans hnow
                | some inquiry =>
                    rw [answer?_step_advance hget] at hnow
                    rw [step_advance hget]
                    refine Inquiry.settled_by_advance ?_ hnow
                    rw [answer?, hget] at hopen
                    exact hopen
              · rw [answer?_step_of_ne s hij] at hnow
                exact nomatch hopen.symm.trans hnow
          | clear => exact absurd rfl hne

/-! ## Progress -/

/-- Whether the action is a step of the inquiry at the given place. -/
def Action.isStepOf (i : Nat) : Action → Bool
  | .advance j => j == i
  | _ => false

/-- The inquiry at a place after an action: its own steps bring it nearer to its end, and no action
    takes it back. -/
theorem remaining_step (inner : Provider) {s : Traffic} {i : Nat} {inquiry : Inquiry}
    (h : s.inquiries[i]? = some inquiry) (action : Action) :
    ∃ next, (step inner s action).inquiries[i]? = some next ∧
      next.remaining ≤ inquiry.remaining - if action.isStepOf i then 1 else 0 := by
  have hlt : i < s.inquiries.length := (List.getElem?_eq_some_iff.mp h).1
  cases action with
  | ask request =>
      refine ⟨inquiry, ?_, Nat.le_refl _⟩
      rw [step, List.getElem?_append_left hlt]
      exact h
  | advance j =>
      by_cases hij : j = i
      · subst hij
        rw [step_advance h, List.getElem?_set_self hlt, Action.isStepOf, beq_self_eq_true]
        exact ⟨_, rfl, inquiry.remaining_advance inner s.cache⟩
      · have hother : (Action.advance j).isStepOf i = false := beq_eq_false_iff_ne.mpr hij
        rw [hother]
        refine ⟨inquiry, ?_, Nat.le_refl _⟩
        cases hget : s.inquiries[j]? with
        | none =>
            rw [step_advance_of_none hget]
            exact h
        | some other =>
            rw [step_advance hget, List.getElem?_set_ne hij]
            exact h
  | clear => exact ⟨inquiry, h, Nat.le_refl _⟩

theorem remaining_run (inner : Provider) {s : Traffic} {i : Nat} {inquiry : Inquiry}
    (h : s.inquiries[i]? = some inquiry) (actions : List Action) :
    ∃ last, (run inner s actions).inquiries[i]? = some last ∧
      last.remaining ≤ inquiry.remaining - actions.countP (Action.isStepOf i) := by
  induction actions generalizing s inquiry with
  | nil => exact ⟨inquiry, h, Nat.le_refl _⟩
  | cons action rest ih =>
      obtain ⟨next, hnext, hle⟩ := remaining_step inner h action
      obtain ⟨last, hlast, hle'⟩ := ih hnext
      refine ⟨last, hlast, ?_⟩
      rw [List.countP_cons]
      omega

/-- **Three steps of its own end an inquiry**, whatever happens in between. -/
theorem answered_of_three_steps {s : Traffic} {i : Nat} (hi : i < s.inquiries.length)
    {actions : List Action} (hsteps : 3 ≤ actions.countP (Action.isStepOf i)) :
    ∃ x, (run inner s actions).answer? i = some x := by
  have hget : s.inquiries[i]? = some s.inquiries[i] := List.getElem?_eq_getElem hi
  obtain ⟨last, hlast, hle⟩ := remaining_run inner hget actions
  have hthree := s.inquiries[i].remaining_le
  obtain ⟨x, hx⟩ := Inquiry.answer?_of_remaining_eq_zero (by omega : last.remaining = 0)
  exact ⟨x, by rw [answer?, hlast]; exact hx⟩

/-! ## Inquiries without interruption -/

theorem step_advance_last (c : Cache) (before : List Inquiry) (inquiry : Inquiry) :
    step inner ⟨c, before ++ [inquiry]⟩ (.advance before.length) =
      ⟨(inquiry.advance inner c).2, before ++ [(inquiry.advance inner c).1]⟩ := by
  have hget : (before ++ [inquiry])[before.length]? = some inquiry := by
    rw [List.getElem?_append_right (Nat.le_refl _), Nat.sub_self]
    rfl
  rw [step_advance hget, List.set_append_right _ _ (Nat.le_refl _), Nat.sub_self]
  rfl

/-- **An inquiry that nothing interrupts is `Cache.answer`.** -/
theorem run_uninterrupted (c : Cache) (before : List Inquiry) (r : Request) :
    run inner ⟨c, before⟩
        [.ask r, .advance before.length, .advance before.length, .advance before.length] =
      ⟨(c.answer inner r).2, before ++ [.answered r (c.answer inner r).1]⟩ := by
  have hask : step inner ⟨c, before⟩ (.ask r) = ⟨c, before ++ [.asking r]⟩ := rfl
  rw [run_cons, run_cons, run_cons, run_cons, run_nil, hask, step_advance_last, step_advance_last,
    step_advance_last, Cache.answer]
  cases hfind : c.find? r with
  | some remembered => simp only [Inquiry.advance, hfind]
  | none =>
      cases hinner : inner r.scope r.reference with
      | error e => simp only [Inquiry.advance, hfind, hinner]
      | ok found => simp only [Inquiry.advance, hfind, hinner]

end Traffic

end ResourceLang

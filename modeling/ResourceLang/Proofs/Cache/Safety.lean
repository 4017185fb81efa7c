import ResourceLang.Proofs.Catalog

/-!
# Safety of a shared cache — what every interleaving keeps

Two inquiries can both miss, both ask the provider and then race to settle, with the cache cleared in
between. Nothing goes wrong, because settling keeps an entry that is already there and hands that one out:
the first answer wins, and whoever is handed an answer afterwards is handed the same one until the cache is
cleared.

* **`run_safe`** — all of this in every state that any run reaches.
-/

namespace ResourceLang.Traffic

/-- What holds of a cache that callers share, now and along every run from now on. -/
structure Safe (inner : Provider) (s : Traffic) : Prop where
  /-- No two entries have one scope and equal references. -/
  distinct : s.cache.answers.keys.Pairwise fun k k' =>
    ¬ (k.scope = k'.scope ∧ (k.reference == k'.reference) = true)
  /-- Each entry equals what the provider finds for its key. -/
  faithful : ∀ e ∈ s.cache.answers.entries,
    ∃ found, inner e.1.scope e.1.reference = .ok found ∧ (e.2 == found) = true
  /-- Entries stay as they are, in place, for as long as the cache is not cleared. -/
  kept : ∀ later, .clear ∉ later →
    s.cache.answers.entries <+: (run inner s later).cache.answers.entries
  /-- A type that was handed out equals what the provider finds for the request. -/
  handed : ∀ i r a, s.answer? i = some (r, .ok a) →
    ∃ found, inner r.scope r.reference = .ok found ∧ (a == found) = true
  /-- A refusal is the provider's refusal of the request, word for word. -/
  refused : ∀ i r e, s.answer? i = some (r, .error e) → inner r.scope r.reference = .error e
  /-- No step of an inquiry that is refused in the end touches the cache. -/
  traceless : ∀ i later r e,
    (run inner s (.advance i :: later)).answer? i = some (r, .error e) →
      (step inner s (.advance i)).cache = s.cache
  /-- Inquiries for one key that end while the cache is not cleared are handed one and the same type. -/
  shared : ∀ later, .clear ∉ later → ∀ i j r r' a a', s.answer? i = none → s.answer? j = none →
    (run inner s later).answer? i = some (r, .ok a) →
    (run inner s later).answer? j = some (r', .ok a') →
    r.scope = r'.scope → (r.reference == r'.reference) = true → a = a'
  /-- An inquiry is over after three steps of its own, whatever happens in between. -/
  ends : ∀ i later, i < s.inquiries.length → 3 ≤ later.countP (Action.isStepOf i) →
    ∃ x, (run inner s later).answer? i = some x

variable {inner : Provider}

/-- What the inquiry at a place was handed agrees with the provider. -/
theorem Sound.agree_of_answer? {s : Traffic} (hs : s.Sound inner) {i : Nat} {r : Request}
    {answer : Except Error ResourceTy} (h : s.answer? i = some (r, answer)) :
    AnswersAgree answer (inner r.scope r.reference) := by
  obtain ⟨inquiry, hget, hanswer⟩ := Option.bind_eq_some_iff.mp h
  exact (hs.inquiries inquiry (List.mem_of_getElem? hget)).agree_of_answer? hanswer

/-- A step that changes the cache ends its inquiry with a type, so a refused inquiry took no such step. -/
theorem cache_step_of_refused {s : Traffic} {i : Nat} {later : List Action} {r : Request} {e : Error}
    (h : (run inner s (.advance i :: later)).answer? i = some (r, .error e)) :
    (step inner s (.advance i)).cache = s.cache := by
  cases hget : s.inquiries[i]? with
  | none => rw [step_advance_of_none hget]
  | some inquiry =>
      rw [step_advance hget]
      rcases inquiry.advance_cache_eq_or_ok inner s.cache with hsame | ⟨r', a, hok⟩
      · exact hsame
      · rw [← answer?_step_advance hget] at hok
        rw [run_cons, answer?_run_of_some hok later] at h
        exact nomatch (Prod.mk.inj (Option.some.inj h)).2

/-- **Every state of every run is safe**, whatever the provider is, as long as it finds equal types under
    equal references. -/
theorem run_safe (hinner : inner.Congruent) (actions : List Action) :
    (run inner start actions).Safe inner := by
  have hs : (run inner start actions).Sound inner :=
    run_sound hinner (start_sound inner) actions
  refine ⟨?_, ?_, ?_, ?_, ?_, ?_, ?_, ?_⟩
  · refine hs.cache.distinct.imp ?_
    intro k k' hne heq
    exact Bool.false_ne_true (hne.symm.trans ((Request.beq_iff k k').mpr heq))
  · intro e he
    exact ⟨e.2, hs.cache.resolved e he, BEq.refl e.2⟩
  · intro later hclear
    exact prefix_run _ hclear
  · intro i r a h
    cases hfound : inner r.scope r.reference with
    | ok found =>
        have hagree := hs.agree_of_answer? h
        rw [hfound] at hagree
        cases hagree with
        | ok heq => exact ⟨found, rfl, heq⟩
    | error e =>
        have hagree := hs.agree_of_answer? h
        rw [hfound] at hagree
        exact nomatch hagree
  · intro i r e h
    generalize hanswer : inner r.scope r.reference = answer
    have hagree := hs.agree_of_answer? h
    rw [hanswer] at hagree
    cases hagree with
    | error => rfl
  · intro i later r e h
    exact cache_step_of_refused h
  · intro later hclear i j r r' a a' hi hj ha ha' hscope href
    -- the cache holds both answers in the end, under keys that are equal
    have hfind := remembered_of_handed hclear hi ha
    have hfind' := remembered_of_handed hclear hj ha'
    have heq : (r == r') = true := (Request.beq_iff r r').mpr ⟨hscope, href⟩
    have hsame := Keyed.get?_congr (run inner (run inner start actions) later).cache.answers heq
    exact Option.some.inj ((hfind.symm.trans hsame).trans hfind')
  · intro i later hi hsteps
    exact answered_of_three_steps hi hsteps

/-- Two inquiries for one reference in two spellings both miss, the cache is cleared while they wait for
    the provider, the later one settles first, and a third one begins after that. -/
def race : List Action :=
  [.ask ⟨.tenant, .storage⟩, .ask ⟨.tenant, Reference.storage.lowercase⟩, .advance 0, .advance 1,
    .advance 0, .clear, .advance 1, .advance 1, .ask ⟨.tenant, .storage⟩, .advance 0, .advance 2]

/-- The race is safe: all three are handed the answer that settled first, in the spelling of the second
    request. -/
theorem race_safe :
    Catalog.storage.provider.Congruent ∧
      (run Catalog.storage.provider start race).Safe Catalog.storage.provider ∧
      ([0, 1, 2].map fun i => ((run Catalog.storage.provider start race).answer? i).map Prod.snd) =
        List.replicate 3 (some (.ok ⟨Reference.storage.lowercase, .anyObject⟩)) :=
  ⟨Catalog.storage.provider_congruent, run_safe Catalog.storage.provider_congruent race, rfl⟩

end ResourceLang.Traffic

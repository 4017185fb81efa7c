import ResourceLang.Proofs.Catalog
import ResourceLang.Proofs.Reference.Text
import ResourceLang.Ty.Name

/-!
# Spelling of cached answers — where a cache can be told from its catalog

A catalog answers in the spelling of the request. A cache finds what it remembers by comparing references
without regard to letter case, and hands it out as it was remembered. So the spelling of an answer is that of
the first equal request since the cache was cleared, and from a catalog behind a cache one can read off how
others have spelled what one asks for.

* **`find?_after`** — what a cache remembers after any use, in terms of the requests alone.
* **`answer_transparent_iff`** — the answer after any use, and when it is the catalog's own.
* **`answer_respelled`** — a request that is not answered as the catalog would.
-/

namespace ResourceLang.Cache

/-- What is done with a cache: it is asked for a type, or it is cleared. -/
inductive Use where
  | ask (request : Request)
  | clear

/-- The cache after one use. -/
def use (inner : Provider) (c : Cache) : Use → Cache
  | .ask request => (c.answer inner request).2
  | .clear => empty

/-- A new cache after some uses. -/
def after (inner : Provider) (uses : List Use) : Cache := uses.foldl (use inner) empty

/-- The requests since the cache was last cleared, after one more use. -/
def recorded (earlier : List Request) : Use → List Request
  | .ask request => earlier ++ [request]
  | .clear => []

/-- The requests since the cache was last cleared, the earliest first. -/
def asked (uses : List Use) : List Request := uses.foldl recorded []

/-- The spelling in which a request is answered after some others: that of the first equal one. -/
def spelling (earlier : List Request) (request : Request) : Reference :=
  ((earlier.find? (· == request)).getD request).reference

/-- Uses one after the other are a run in which no inquiry is interrupted. -/
theorem exists_run_of_uses (inner : Provider) (uses : List Use) :
    ∃ actions, (Traffic.run inner .start actions).cache = after inner uses := by
  have hrun : ∀ (c : Cache) (before : List Inquiry),
      ∃ actions, (Traffic.run inner ⟨c, before⟩ actions).cache = uses.foldl (use inner) c := by
    induction uses with
    | nil => intro c before; exact ⟨[], rfl⟩
    | cons u rest ih =>
        intro c before
        cases u with
        | ask r =>
            obtain ⟨actions, hactions⟩ := ih (c.answer inner r).2
              (before ++ [.answered r (c.answer inner r).1])
            refine ⟨[.ask r, .advance before.length, .advance before.length,
              .advance before.length] ++ actions, ?_⟩
            rw [Traffic.run_append, Traffic.run_uninterrupted]
            exact hactions
        | clear =>
            obtain ⟨actions, hactions⟩ := ih empty before
            exact ⟨.clear :: actions, hactions⟩
  exact hrun empty []

/-! ## What is remembered -/

/-- The cache remembers what the provider finds for the first of all equal requests. -/
def Mirrors (inner : Provider) (c : Cache) (earlier : List Request) : Prop :=
  ∀ request, c.find? request =
    (earlier.find? (· == request)).bind fun first => (inner first.scope first.reference).toOption

variable {inner : Provider}

theorem mirrors_empty (inner : Provider) : empty.Mirrors inner [] := fun _ => rfl

/-- A request adds what the provider finds under its key, if nothing was there. -/
theorem find?_answer (c : Cache) (q r : Request) :
    (c.answer inner q).2.find? r =
      (c.find? r).or (if r == q then (inner q.scope q.reference).toOption else none) := by
  rw [answer]
  cases hq : c.find? q with
  | some remembered =>
      by_cases hrq : (r == q) = true
      · have hr : c.find? r = some remembered := (Keyed.get?_congr c.answers hrq).trans hq
        rw [hr, Option.some_or]
      · rw [if_neg hrq, Option.or_none]
  | none =>
      cases hinner : inner q.scope q.reference with
      | error e =>
          rw [Except.toOption, ite_self, Option.or_none]
      | ok found =>
          show (c.settle q found).2.find? r = _
          rw [settle_of_find?_eq_none hq]
          show (c.answers.insert q found).get? r = _
          rw [Keyed.get?_insert]
          by_cases hrq : (r == q) = true
          · have hr : c.find? r = none := (Keyed.get?_congr c.answers hrq).trans hq
            rw [if_pos hrq, if_pos hrq, hr]
            rfl
          · rw [if_neg hrq, if_neg hrq, Option.or_none]
            rfl

/-- A provider that is congruent refuses equal requests together. -/
theorem refused_of_beq (hinner : inner.Congruent) {r r' : Request} (heq : (r == r') = true)
    (h : (inner r.scope r.reference).toOption = none) :
    (inner r'.scope r'.reference).toOption = none := by
  obtain ⟨hscope, href⟩ := (Request.beq_iff r r').mp heq
  cases hfound : inner r'.scope r'.reference with
  | error e => rfl
  | ok found =>
      rw [← hscope] at hfound
      obtain ⟨found', hfound', -⟩ := hinner r.scope r'.reference r.reference found (BEq.symm href) hfound
      rw [hfound'] at h
      exact nomatch h

theorem Mirrors.use (hinner : inner.Congruent) {c : Cache} {earlier : List Request}
    (hc : c.Mirrors inner earlier) (u : Use) :
    (c.use inner u).Mirrors inner (recorded earlier u) := by
  cases u with
  | clear => exact mirrors_empty inner
  | ask q =>
      intro r
      show (c.answer inner q).2.find? r = ((earlier ++ [q]).find? (· == r)).bind _
      rw [find?_answer, hc r, List.find?_append]
      cases hfirst : earlier.find? (· == r) with
      | some first =>
          rw [Option.some_or, Option.bind_some]
          cases hfound : (inner first.scope first.reference).toOption with
          | some found => rw [Option.some_or]
          | none =>
              -- the first equal request was refused, and this one is refused like it
              rw [Option.none_or]
              by_cases hrq : (r == q) = true
              · have hfirstr : (first == r) = true := List.find?_some (p := (· == r)) hfirst
                rw [if_pos hrq]
                exact refused_of_beq hinner (BEq.trans hfirstr hrq) hfound
              · rw [if_neg hrq]
      | none =>
          rw [Option.bind_none, Option.none_or, Option.none_or, List.find?_singleton, BEq.comm (a := q)]
          by_cases hrq : (r == q) = true
          · rw [if_pos hrq, if_pos hrq, Option.bind_some]
          · rw [if_neg hrq, if_neg hrq, Option.bind_none]

/-- **What a cache remembers after any use**: for each request, what the provider finds for the first equal
    one since the cache was cleared. -/
theorem find?_after (hinner : inner.Congruent) (uses : List Use) :
    (after inner uses).Mirrors inner (asked uses) := by
  have hrun : ∀ (c : Cache) (earlier : List Request), c.Mirrors inner earlier →
      (uses.foldl (use inner) c).Mirrors inner (uses.foldl recorded earlier) := by
    induction uses with
    | nil => intro c earlier hc; exact hc
    | cons u rest ih => intro c earlier hc; exact ih _ _ (hc.use hinner u)
  exact hrun empty [] (mirrors_empty inner)

/-! ## What is answered -/

theorem spelling_beq (earlier : List Request) (r : Request) :
    (spelling earlier r == r.reference) = true := by
  rw [spelling]
  cases hfirst : earlier.find? (· == r) with
  | none => exact BEq.refl r.reference
  | some first =>
      have heq : (first == r) = true := List.find?_some (p := (· == r)) hfirst
      exact ((Request.beq_iff first r).mp heq).2

/-- The answer after any use is the catalog's answer in the spelling of the first equal request. -/
theorem answer_after (catalog : Catalog) (uses : List Use) (r : Request) :
    ((after catalog.provider uses).answer catalog.provider r).1 =
      (catalog.provider r.scope r.reference).map fun found =>
        ⟨spelling (asked uses) r, found.body⟩ := by
  have hfind := find?_after catalog.provider_congruent uses r
  rw [answer, spelling]
  cases hfirst : (asked uses).find? (· == r) with
  | none =>
      rw [hfirst, Option.bind_none] at hfind
      rw [hfind]
      cases hfound : catalog.provider r.scope r.reference with
      | error e => rfl
      | ok found =>
          show Except.ok ((after catalog.provider uses).settle r found).1 = .ok ⟨r.reference, found.body⟩
          rw [settle_of_find?_eq_none hfind, ← catalog.reference_of_provider hfound]
          cases found
          rfl
  | some first =>
      -- the catalog answers or refuses `r` as it did the first equal request
      have heq : (first == r) = true := List.find?_some (p := (· == r)) hfirst
      obtain ⟨hscope, href⟩ := (Request.beq_iff first r).mp heq
      rw [hfirst, Option.bind_some] at hfind
      cases hfound : catalog.provider first.scope first.reference with
      | ok found =>
          rw [hfound] at hfind
          have hr := catalog.provider_respelled href hfound
          rw [hscope] at hr
          rw [hfind, hr, Option.getD_some, ← catalog.reference_of_provider hfound]
          cases found
          rfl
      | error e =>
          have hnone := refused_of_beq catalog.provider_congruent heq (by rw [hfound]; rfl)
          rw [hfound] at hfind
          rw [hfind]
          cases hr : catalog.provider r.scope r.reference with
          | error e' => rfl
          | ok found =>
              rw [hr] at hnone
              exact absurd hnone (Option.some_ne_none found)

/-- **The answer after any use**: the catalog's own but for the spelling, which is that of the first equal
    request since the cache was cleared. It is the catalog's own answer, and is named as that is, exactly if
    the request is refused or that first one was spelled in the same way. -/
theorem answer_transparent_iff (catalog : Catalog) (uses : List Use) (r : Request) :
    let handed := ((after catalog.provider uses).answer catalog.provider r).1
    let own := catalog.provider r.scope r.reference
    handed = own.map (fun found => ⟨spelling (asked uses) r, found.body⟩) ∧
      (handed = own ↔ (∃ e, own = .error e) ∨ spelling (asked uses) r = r.reference) ∧
      (handed.map (fun found => (Ty.resource found).name) =
          own.map (fun found => (Ty.resource found).name) ↔
        (∃ e, own = .error e) ∨ spelling (asked uses) r = r.reference) := by
  intro handed own
  have hhanded : handed = own.map fun found => ⟨spelling (asked uses) r, found.body⟩ :=
    answer_after catalog uses r
  refine ⟨hhanded, ?_⟩
  rw [hhanded]
  cases hown : own with
  | error e =>
      have hrefused : (∃ e', (Except.error e : Except Error ResourceTy) = .error e') ∨
          spelling (asked uses) r = r.reference := Or.inl ⟨e, rfl⟩
      exact ⟨iff_of_true rfl hrefused, iff_of_true rfl hrefused⟩
  | ok found =>
      have hspelled : found.reference = r.reference := catalog.reference_of_provider hown
      obtain ⟨reference, body⟩ := found
      obtain rfl : reference = r.reference := hspelled
      have hanswered : ¬ ∃ e, (Except.ok ⟨r.reference, body⟩ : Except Error ResourceTy) = .error e := by
        rintro ⟨e, h⟩
        exact nomatch h
      rw [or_iff_right hanswered]
      constructor
      · constructor
        · intro h
          exact (ResourceTy.mk.inj (Except.ok.inj h)).1
        · intro h
          rw [h]
          rfl
      · constructor
        · intro h
          -- names are texts of references, and these two references are equal up to letter case
          have htext : (spelling (asked uses) r).text = r.reference.text := Except.ok.inj h
          exact Reference.eq_of_beq_of_text_eq (spelling_beq (asked uses) r) htext
        · intro h
          rw [h]
          rfl

/-- A request in mixed case that follows one in lowercase is answered in lowercase, and by another name than
    the catalog's own answer. -/
theorem answer_respelled :
    let handed := ((after Catalog.storage.provider
      [.ask ⟨.tenant, Reference.storage.lowercase⟩]).answer Catalog.storage.provider
        ⟨.tenant, .storage⟩).1
    handed = .ok ⟨Reference.storage.lowercase, .anyObject⟩ ∧
      Catalog.storage.provider .tenant .storage = .ok ⟨.storage, .anyObject⟩ ∧
      ¬ (∀ found, handed = .ok found → found.reference = .storage) ∧
      (Ty.resource ⟨Reference.storage.lowercase, .anyObject⟩).name ≠
        (Ty.resource ⟨.storage, .anyObject⟩).name := by
  refine ⟨rfl, rfl, ?_, by decide⟩
  intro h
  have hsame : Reference.storage.lowercase = .storage := h ⟨Reference.storage.lowercase, .anyObject⟩ rfl
  exact absurd ((Reference.mk.injEq ..).mp hsame).1 (by decide)

end ResourceLang.Cache

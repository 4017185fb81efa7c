import Mathlib.Data.List.Forall2
import ResourceLang.Proofs.Binding.Equality
import ResourceLang.Proofs.Catalog

/-!
# Schedules — binding the declarations of a program at the same time

The declarations of a program are bound in tasks that take turns in any order and share a cache. At its first
turn a task finds out what its declaration asks; then it takes the steps of an inquiry, one at a turn; with
the answer it binds the declaration, and the result stays at the place of the declaration. A schedule is the
list of places whose turn it is.

What a task finds in the cache depends on the other tasks, so results of different schedules are not the
same: a type may have the spelling that another declaration has used. They agree up to the equality of types,
because the invariant ties each task to what the provider would answer and not to what the cache holds.

* **`Batch.run_sound`** — the invariant holds under every schedule.
* **`Batch.run_in_order`** — the declarations in source order, one after the other, are one schedule.
* **`Batch.bound_as_alone`** — under every schedule each declaration is bound as it would be alone.
-/

namespace ResourceLang

open Syntax (Declaration)

/-- How far the binding of a declaration has come. -/
inductive Task where
  /-- The declaration is to be looked at. -/
  | waiting
  /-- The cache or the provider is to be asked. -/
  | asking (inquiry : Inquiry)
  /-- The declaration is bound, or some part of it covers no region of the text. -/
  | ended (result : Except Disorder BoundDeclaration)

/-- Declarations with their tasks, in source order, and the cache that the tasks share. -/
structure Batch where
  cache : Cache
  tasks : List (Declaration × Task)

section Steps

variable (settings : Settings) (registry : Registry) (inner : Provider)

/-- A turn of a task, and the cache after it. -/
def Task.advance (c : Cache) (d : Declaration) : Task → Task × Cache
  | waiting =>
    match requestOf settings d with
    | some request => (asking (.asking request), c)
    | none => (ended (bindDeclaration settings registry inner d), c)
  | asking inquiry =>
    match (inquiry.advance inner c).1.answer? with
    | some (_, answer) =>
      (ended (bindDeclaration settings registry (fun _ _ => answer) d), (inquiry.advance inner c).2)
    | none => (asking (inquiry.advance inner c).1, (inquiry.advance inner c).2)
  | ended result => (ended result, c)

namespace Batch

/-- No task has begun. -/
def start (c : Cache) (program : List Declaration) : Batch := ⟨c, program.map fun d => (d, .waiting)⟩

/-- The state after a turn of the task at a place. -/
def turn (s : Batch) (i : Nat) : Batch :=
  match s.tasks[i]? with
  | some (d, task) =>
    ⟨(task.advance settings registry inner s.cache d).2,
      s.tasks.set i (d, (task.advance settings registry inner s.cache d).1)⟩
  | none => s

/-- The state after some turns. -/
def run (s : Batch) (schedule : List Nat) : Batch := schedule.foldl (turn settings registry inner) s

/-- All tasks are over, with the given results. -/
def Finished (s : Batch) (results : List BoundDeclaration) : Prop :=
  s.tasks.map Prod.snd = results.map fun b => .ended (.ok b)

end Batch

/-! ## The invariant -/

/-- A task asks what its declaration asks, and its result agrees with binding from the provider. -/
inductive Task.Sound (d : Declaration) : Task → Prop where
  | waiting : Sound d .waiting
  | asking {inquiry : Inquiry} (hrequest : requestOf settings d = some inquiry.request)
      (h : inquiry.Sound inner) : Sound d (.asking inquiry)
  | ended {result : Except Disorder BoundDeclaration}
      (h : Agree BoundDeclaration.Agrees result (bindDeclaration settings registry inner d)) :
      Sound d (.ended result)

/-- The cache and every task are sound. -/
structure Batch.Sound (s : Batch) : Prop where
  cache : s.cache.Sound inner
  tasks : ∀ t ∈ s.tasks, Task.Sound settings registry inner t.1 t.2

end Steps

variable {settings : Settings} {registry : Registry} {inner : Provider}

theorem BoundDeclaration.Agrees.refl (b : BoundDeclaration) : b.Agrees b :=
  ⟨rfl, rfl, rfl, BEq.refl _, BEq.refl _, rfl, rfl⟩

/-- A turn keeps the cache and the task sound. -/
theorem Task.advance_sound (hregistry : registry.RespectsEquality) (hinner : inner.Congruent)
    {c : Cache} (hc : c.Sound inner) {d : Declaration} {task : Task}
    (htask : task.Sound settings registry inner d) :
    (task.advance settings registry inner c d).1.Sound settings registry inner d ∧
      (task.advance settings registry inner c d).2.Sound inner := by
  cases htask with
  | waiting =>
      rw [advance]
      cases hrequest : requestOf settings d with
      | some request => exact ⟨.asking hrequest (.asking request), hc⟩
      | none => exact ⟨.ended (Agree.refl BoundDeclaration.Agrees.refl _), hc⟩
  | @asking inquiry hrequest hinquiry =>
      obtain ⟨hnext, hafter⟩ := Inquiry.advance_sound hinner hc hinquiry
      rw [advance]
      cases hanswer : (inquiry.advance inner c).1.answer? with
      | none =>
          refine ⟨.asking ?_ hnext, hafter⟩
          rw [inquiry.request_advance]
          exact hrequest
      | some handed =>
          obtain ⟨r, answer⟩ := handed
          -- the request of the inquiry is that of the declaration
          have hr : requestOf settings d = some r := by
            rw [← Inquiry.request_of_answer? hanswer, inquiry.request_advance]
            exact hrequest
          refine ⟨.ended ?_, hafter⟩
          rw [bindDeclaration_of_requestOf_eq_some hr registry inner]
          exact bindDeclaration_congr hregistry settings d (hnext.agree_of_answer? hanswer)
  | ended h => exact ⟨.ended h, hc⟩

namespace Batch

theorem turn_of_some {s : Batch} {i : Nat} {d : Declaration} {task : Task}
    (h : s.tasks[i]? = some (d, task)) :
    s.turn settings registry inner i =
      ⟨(task.advance settings registry inner s.cache d).2,
        s.tasks.set i (d, (task.advance settings registry inner s.cache d).1)⟩ := by
  rw [turn, h]

theorem turn_of_none {s : Batch} {i : Nat} (h : s.tasks[i]? = none) :
    s.turn settings registry inner i = s := by
  rw [turn, h]

theorem run_cons (s : Batch) (i : Nat) (schedule : List Nat) :
    s.run settings registry inner (i :: schedule) =
      (s.turn settings registry inner i).run settings registry inner schedule := rfl

theorem run_append (s : Batch) (schedule later : List Nat) :
    s.run settings registry inner (schedule ++ later) =
      (s.run settings registry inner schedule).run settings registry inner later :=
  List.foldl_append

/-- Tasks stay at the places of their declarations. -/
theorem declarations_turn (s : Batch) (i : Nat) :
    (s.turn settings registry inner i).tasks.map Prod.fst = s.tasks.map Prod.fst := by
  cases h : s.tasks[i]? with
  | none => rw [turn_of_none h]
  | some t =>
      obtain ⟨d, task⟩ := t
      obtain ⟨hlt, hget⟩ := List.getElem?_eq_some_iff.mp h
      -- what is written at place `i` has the declaration that stood there
      rw [turn_of_some h, List.map_set]
      ext j : 1
      by_cases hij : i = j
      · subst hij
        rw [List.getElem?_set_self (by rw [List.length_map]; exact hlt), List.getElem?_map, h]
        rfl
      · rw [List.getElem?_set_ne hij]

theorem declarations_run (s : Batch) (schedule : List Nat) :
    (s.run settings registry inner schedule).tasks.map Prod.fst = s.tasks.map Prod.fst := by
  induction schedule generalizing s with
  | nil => rfl
  | cons i rest ih => rw [run_cons, ih, declarations_turn]

theorem start_sound {c : Cache} (hc : c.Sound inner) (program : List Declaration) :
    (start c program).Sound settings registry inner := by
  refine ⟨hc, ?_⟩
  intro t ht
  obtain ⟨d, -, rfl⟩ := List.mem_map.mp ht
  exact .waiting

/-- A turn keeps the cache and every task sound. -/
theorem turn_sound (hregistry : registry.RespectsEquality) (hinner : inner.Congruent) {s : Batch}
    (hs : s.Sound settings registry inner) (i : Nat) :
    (s.turn settings registry inner i).Sound settings registry inner := by
  cases h : s.tasks[i]? with
  | none =>
      rw [turn_of_none h]
      exact hs
  | some t =>
      obtain ⟨d, task⟩ := t
      obtain ⟨htask, hcache⟩ := Task.advance_sound hregistry hinner hs.cache
        (hs.tasks (d, task) (List.mem_of_getElem? h))
      rw [turn_of_some h]
      refine ⟨hcache, ?_⟩
      intro t ht
      rcases List.mem_or_eq_of_mem_set ht with hold | hnew
      · exact hs.tasks t hold
      · rw [hnew]
        exact htask

/-- **The invariant holds under every schedule.** -/
theorem run_sound (hregistry : registry.RespectsEquality) (hinner : inner.Congruent) {s : Batch}
    (hs : s.Sound settings registry inner) (schedule : List Nat) :
    (s.run settings registry inner schedule).Sound settings registry inner := by
  induction schedule generalizing s with
  | nil => exact hs
  | cons i rest ih => exact ih (turn_sound hregistry hinner hs i)

end Batch

/-! ## Progress -/

/-- The number of turns that a task takes at most until it is over. -/
def Task.remaining : Task → Nat
  | waiting => 4
  | asking inquiry => max inquiry.remaining 1
  | ended _ => 0

theorem Task.remaining_advance (settings : Settings) (registry : Registry) (inner : Provider)
    (c : Cache) (d : Declaration) (task : Task) :
    (task.advance settings registry inner c d).1.remaining ≤ task.remaining - 1 := by
  cases task with
  | waiting =>
      rw [advance]
      cases requestOf settings d with
      | some request => exact Nat.le_refl 3
      | none => exact Nat.zero_le 3
  | asking inquiry =>
      rw [advance]
      have hnext := inquiry.remaining_advance inner c
      cases hanswer : (inquiry.advance inner c).1.answer? with
      | some handed => exact Nat.zero_le _
      | none =>
          -- an inquiry that is not over has a step left, so this one had two
          have hleft : (inquiry.advance inner c).1.remaining ≠ 0 := by
            intro hzero
            obtain ⟨x, hx⟩ := Inquiry.answer?_of_remaining_eq_zero hzero
            exact nomatch hanswer.symm.trans hx
          show max (inquiry.advance inner c).1.remaining 1 ≤ max inquiry.remaining 1 - 1
          omega
  | ended result => exact Nat.le_refl 0

namespace Batch

/-- The task at a place after some turns, a number of which were its own. -/
theorem remaining_run (settings : Settings) (registry : Registry) (inner : Provider) {s : Batch}
    {i : Nat} {t : Declaration × Task} (h : s.tasks[i]? = some t) (schedule : List Nat) :
    ∃ t', (s.run settings registry inner schedule).tasks[i]? = some t' ∧
      t'.2.remaining ≤ t.2.remaining - schedule.count i := by
  induction schedule generalizing s t with
  | nil => exact ⟨t, h, Nat.le_refl _⟩
  | cons j rest ih =>
      rw [run_cons, List.count_cons]
      by_cases hij : j = i
      · subst hij
        have hlt : j < s.tasks.length := (List.getElem?_eq_some_iff.mp h).1
        obtain ⟨d, task⟩ := t
        have hnext : (s.turn settings registry inner j).tasks[j]? =
            some (d, (task.advance settings registry inner s.cache d).1) := by
          rw [turn_of_some h, List.getElem?_set_self hlt]
        obtain ⟨t', ht', hle⟩ := ih hnext
        have hone := task.remaining_advance settings registry inner s.cache d
        refine ⟨t', ht', ?_⟩
        rw [if_pos (beq_self_eq_true j)]
        calc
          t'.2.remaining
              ≤ (task.advance settings registry inner s.cache d).1.remaining - rest.count j := hle
          _ ≤ task.remaining - (rest.count j + 1) := by omega
      · have hother : (s.turn settings registry inner j).tasks[i]? = some t := by
          cases hj : s.tasks[j]? with
          | none =>
              rw [turn_of_none hj]
              exact h
          | some u =>
              rw [turn_of_some hj, List.getElem?_set_ne hij]
              exact h
        obtain ⟨t', ht', hle⟩ := ih hother
        refine ⟨t', ht', ?_⟩
        rw [if_neg (fun heq => hij (beq_iff_eq.mp heq))]
        exact hle

/-! ## Results -/

/-- The results of a sound batch agree with binding from the provider, place by place. -/
theorem agree_of_finished {s : Batch} (hs : s.Sound settings registry inner)
    {results : List BoundDeclaration} (h : s.Finished results) :
    List.Forall₂ (fun d b => Agree BoundDeclaration.Agrees (.ok b)
      (bindDeclaration settings registry inner d)) (s.tasks.map Prod.fst) results := by
  obtain ⟨c, tasks⟩ := s
  have htasks : ∀ t ∈ tasks, Task.Sound settings registry inner t.1 t.2 := hs.tasks
  have hresults : tasks.map Prod.snd = results.map fun b => .ended (.ok b) := h
  show List.Forall₂ _ (tasks.map Prod.fst) results
  clear hs h
  induction tasks generalizing results with
  | nil =>
      rw [List.map_eq_nil_iff.mp hresults.symm]
      exact .nil
  | cons t rest ih =>
      cases results with
      | nil => exact nomatch hresults
      | cons b later =>
          obtain ⟨hhead, htail⟩ := List.cons.inj hresults
          refine .cons ?_ (ih (fun u hu => htasks u (List.mem_cons_of_mem t hu)) htail)
          have hfirst := htasks t List.mem_cons_self
          rw [hhead] at hfirst
          cases hfirst with
          | ended hagree => exact hagree

/-- A batch whose tasks are over is finished, if each of its declarations covers a region of the text. -/
theorem exists_finished {s : Batch} (hs : s.Sound settings registry inner)
    (hlocated : ∀ t ∈ s.tasks, t.1.Located) (hover : ∀ t ∈ s.tasks, t.2.remaining = 0) :
    ∃ results, s.Finished results := by
  obtain ⟨c, tasks⟩ := s
  have htasks : ∀ t ∈ tasks, Task.Sound settings registry inner t.1 t.2 := hs.tasks
  clear hs
  induction tasks with
  | nil => exact ⟨[], rfl⟩
  | cons t rest ih =>
      obtain ⟨later, hlater⟩ := ih (fun u hu => hlocated u (List.mem_cons_of_mem t hu))
        (fun u hu => hover u (List.mem_cons_of_mem t hu))
        (fun u hu => htasks u (List.mem_cons_of_mem t hu))
      obtain ⟨d, task⟩ := t
      have hzero : task.remaining = 0 := hover (d, task) List.mem_cons_self
      cases htasks (d, task) List.mem_cons_self with
      | waiting => exact nomatch hzero
      | @asking inquiry hrequest h =>
          have hmax : max inquiry.remaining 1 = 0 := hzero
          omega
      | ended hagree =>
          obtain ⟨alone, halone⟩ := bindDeclaration_of_located (hlocated _ List.mem_cons_self)
            settings registry inner
          rw [halone] at hagree
          obtain ⟨b, hb, -⟩ := Agree.ok_right_iff.mp hagree
          refine ⟨b :: later, ?_⟩
          have htail : rest.map Prod.snd = later.map fun b => Task.ended (.ok b) := hlater
          show Task.ended _ :: rest.map Prod.snd = Task.ended (.ok b) :: later.map _
          rw [hb, htail]

/-! ## Source order -/

/-- Four turns of the task at place `first`, then of the one after it, and so on for `count` tasks. -/
def inOrder (first : Nat) : Nat → List Nat
  | 0 => []
  | count + 1 => List.replicate 4 first ++ inOrder (first + 1) count

/-- The turn of the first task that is not over yet. -/
theorem turn_between (c : Cache) (done : List (Declaration × Task)) (d : Declaration) (task : Task)
    (rest : List (Declaration × Task)) :
    turn settings registry inner ⟨c, done ++ (d, task) :: rest⟩ done.length =
      ⟨(task.advance settings registry inner c d).2,
        done ++ (d, (task.advance settings registry inner c d).1) :: rest⟩ := by
  have hget : (done ++ (d, task) :: rest)[done.length]? = some (d, task) := by
    rw [List.getElem?_append_right (Nat.le_refl _), Nat.sub_self]
    rfl
  rw [turn_of_some hget, List.set_append_right _ _ (Nat.le_refl _), Nat.sub_self]
  rfl

/-- Four turns without others in between bind a declaration through the cache. -/
theorem run_four_turns (c : Cache) (done : List (Declaration × Task)) (d : Declaration)
    (rest : List (Declaration × Task)) :
    run settings registry inner ⟨c, done ++ (d, .waiting) :: rest⟩ (List.replicate 4 done.length) =
      ⟨c.afterBinding settings inner d,
        done ++ (d, .ended (bindDeclaration settings registry (c.provider inner) d)) :: rest⟩ := by
  show run settings registry inner _ [done.length, done.length, done.length, done.length] = _
  rw [run_cons, run_cons, run_cons, run_cons, turn_between, turn_between, turn_between, turn_between,
    Cache.afterBinding]
  cases hrequest : requestOf settings d with
  | none =>
      rw [bindDeclaration_of_requestOf_eq_none hrequest registry (c.provider inner) inner]
      simp only [Task.advance, hrequest]
      rfl
  | some r =>
      have hanswer : c.provider inner r.scope r.reference = (c.answer inner r).1 := rfl
      rw [bindDeclaration_of_requestOf_eq_some hrequest registry (c.provider inner), hanswer]
      cases hfind : c.find? r with
      | some remembered =>
          simp only [Task.advance, hrequest, Inquiry.advance, hfind, Inquiry.answer?, Cache.answer]
          rfl
      | none =>
          cases hinner : inner r.scope r.reference with
          | error e =>
              simp only [Task.advance, hrequest, Inquiry.advance, hfind, hinner, Inquiry.answer?,
                Cache.answer]
              rfl
          | ok found =>
              simp only [Task.advance, hrequest, Inquiry.advance, hfind, hinner, Inquiry.answer?,
                Cache.answer]
              rfl

/-- **The declarations in source order, one after the other, are one schedule**: it ends with the results
    and the cache of binding through the cache. -/
theorem run_in_order {program : List Declaration} {c after : Cache} {results : List BoundDeclaration}
    (h : bindDeclarationsCached settings registry inner program c = .ok (results, after)) :
    ((start c program).run settings registry inner (inOrder 0 program.length)).cache = after ∧
      ((start c program).run settings registry inner (inOrder 0 program.length)).Finished results := by
  have hrun : ∀ (done : List (Declaration × Task)) (program : List Declaration) (c : Cache)
      (results : List BoundDeclaration),
      bindDeclarationsCached settings registry inner program c = .ok (results, after) →
      ∃ tasks, tasks.map Prod.snd = results.map (fun b => .ended (.ok b)) ∧
        run settings registry inner ⟨c, done ++ program.map fun d => (d, .waiting)⟩
          (inOrder done.length program.length) = ⟨after, done ++ tasks⟩ := by
    intro done program
    induction program generalizing done with
    | nil =>
        intro c results h
        obtain ⟨rfl, rfl⟩ := Prod.mk.inj (Except.ok.inj h)
        exact ⟨[], rfl, rfl⟩
    | cons d rest ih =>
        intro c results h
        rw [bindDeclarationsCached] at h
        cases hb : bindDeclaration settings registry (c.provider inner) d with
        | error e =>
            rw [hb] at h
            exact nomatch h
        | ok b =>
            rw [hb] at h
            cases hlater : bindDeclarationsCached settings registry inner rest
                (c.afterBinding settings inner d) with
            | error e =>
                simp only [bind, Except.bind, hlater] at h
                exact nomatch h
            | ok found =>
                obtain ⟨later, last⟩ := found
                simp only [bind, Except.bind, hlater] at h
                obtain ⟨rfl, rfl⟩ := Prod.mk.inj (Except.ok.inj h)
                -- the task of `d` joins those that are over, and the rest follows
                obtain ⟨tasks, htasks, hrest⟩ := ih (done ++ [(d, .ended (.ok b))])
                  (c.afterBinding settings inner d) later hlater
                refine ⟨(d, .ended (.ok b)) :: tasks, ?_, ?_⟩
                · rw [List.map_cons, List.map_cons, htasks]
                · rw [List.length_cons, inOrder, run_append, List.map_cons, run_four_turns, hb]
                  rw [List.length_append, List.length_singleton, List.append_assoc,
                    List.append_assoc] at hrest
                  exact hrest
  obtain ⟨tasks, htasks, hlast⟩ := hrun [] program c results h
  have hstart : (start c program).run settings registry inner (inOrder 0 program.length) =
      ⟨after, tasks⟩ := hlast
  rw [hstart]
  exact ⟨rfl, htasks⟩

/-! ## Every schedule -/

/-- Declarations that cover regions of the text are bound through any cache. -/
theorem bindDeclarationsCached_of_located {program : List Declaration}
    (h : ∀ d ∈ program, d.Located) (settings : Settings) (registry : Registry) (inner : Provider)
    (c : Cache) :
    ∃ results after, bindDeclarationsCached settings registry inner program c = .ok (results, after) := by
  induction program generalizing c with
  | nil => exact ⟨[], c, rfl⟩
  | cons d rest ih =>
      obtain ⟨b, hb⟩ := bindDeclaration_of_located (h d List.mem_cons_self) settings registry
        (c.provider inner)
      obtain ⟨later, after, hlater⟩ := ih (fun d' hd' => h d' (List.mem_cons_of_mem d hd'))
        (c.afterBinding settings inner d)
      refine ⟨b :: later, after, ?_⟩
      simp only [bindDeclarationsCached, hb, hlater, bind, Except.bind]
      rfl

/-- **Under every schedule each declaration is bound as it would be alone**, with the catalog in place of
    the cache: whatever the cache remembers from before, whichever tasks take their turns in between. Four
    turns for each task bring all of them to an end, and so does binding in source order. -/
theorem bound_as_alone {decorators : List Decorator}
    (hdecorators : ∀ d ∈ decorators, d ∈ Decorator.standard ∨ d.RespectsEquality)
    {program : List Declaration} (hprogram : ∀ d ∈ program, d.Located) (settings : Settings)
    (catalog : Catalog) (history : List Traffic.Action) (schedule : List Nat) :
    let registry := decorators.foldl Registry.register .empty
    let cache := (Traffic.run catalog.provider .start history).cache
    let asAlone := fun (d : Declaration) (b : BoundDeclaration) =>
      ∃ alone, bindDeclaration settings registry catalog.provider d = .ok alone ∧ b.Agrees alone
    let s := (start cache program).run settings registry catalog.provider schedule
    (∀ results, s.Finished results → List.Forall₂ asAlone program results) ∧
      ((∀ i < program.length, 4 ≤ schedule.count i) → ∃ results, s.Finished results) ∧
      ∃ results after,
        bindProgramCached settings registry catalog.provider cache program = .ok (⟨results⟩, after) ∧
          List.Forall₂ asAlone program results := by
  intro registry cache asAlone s
  have hregistry : registry.RespectsEquality := by
    refine Registry.respectsEquality_of_registered ?_
    intro d hd
    rcases hdecorators d hd with hstandard | hequality
    · exact Decorator.respectsEquality_of_standard hstandard
    · exact hequality
  have hinner : catalog.provider.Congruent := catalog.provider_congruent
  have hcache : cache.Sound catalog.provider :=
    (Traffic.run_sound hinner (Traffic.start_sound _) history).cache
  have hstart : (start cache program).Sound settings registry catalog.provider :=
    start_sound hcache program
  have hplaces : ∀ turns : List Nat,
      ((start cache program).run settings registry catalog.provider turns).tasks.map Prod.fst =
        program := by
    intro turns
    rw [declarations_run, start, List.map_map]
    exact List.map_id program
  have hresults : ∀ (turns : List Nat) (results : List BoundDeclaration),
      ((start cache program).run settings registry catalog.provider turns).Finished results →
        List.Forall₂ asAlone program results := by
    intro turns results hfinished
    have hagree := agree_of_finished (run_sound hregistry hinner hstart turns) hfinished
    rw [hplaces] at hagree
    exact hagree.imp fun d b h => Agree.ok_left_iff.mp h
  refine ⟨hresults schedule, ?_, ?_⟩
  · -- every task begins with four turns to take, and each has had as many
    intro hturns
    have hs : s.tasks.map Prod.fst = program := hplaces schedule
    refine exists_finished (run_sound hregistry hinner hstart schedule) ?_ ?_
    · intro t ht
      exact hprogram t.1 (hs ▸ List.mem_map_of_mem ht)
    · intro t ht
      obtain ⟨i, hi, rfl⟩ := List.mem_iff_getElem.mp ht
      have hlength : s.tasks.length = program.length := by rw [← hs, List.length_map]
      have hwaiting : (start cache program).tasks[i]? = some (program[i], .waiting) := by
        rw [start, List.getElem?_map, List.getElem?_eq_getElem (hlength ▸ hi)]
        rfl
      obtain ⟨t', ht', hle⟩ := remaining_run settings registry catalog.provider hwaiting
        schedule
      have hsame : t' = s.tasks[i] :=
        Option.some.inj (ht'.symm.trans (List.getElem?_eq_getElem hi))
      have hfour := hturns i (hlength ▸ hi)
      have hzero : t'.2.remaining ≤ 4 - schedule.count i := hle
      rw [← hsame]
      omega
  · -- source order is one of the schedules
    obtain ⟨results, after, h⟩ := bindDeclarationsCached_of_located hprogram settings registry
      catalog.provider cache
    refine ⟨results, after, ?_, hresults _ _ (run_in_order h).2⟩
    rw [bindProgramCached, h]
    rfl

/-! ## A program that spells one reference in two ways -/

/-- A decorator of an application: a list of what is declared. -/
def listed : Decorator where
  target := .any
  signature := { name := "listed", flags := .onResources }
  metadata := fun use _ => Decorator.firstArgument "listed" use
  narrow := .array

theorem listed_respectsEquality : listed.RespectsEquality := by
  refine ⟨fun _ _ _ _ => rfl, ?_⟩
  intro a b h
  show (Ty.array a == Ty.array b) = true
  rw [Ty.beq_iff_canonical_eq, Ty.canonical, Ty.canonical, (Ty.beq_iff_canonical_eq a b).mp h]

/-- A resource with a reference in the given spelling, below an application of the given decorator. -/
def resourceNamed (name decorator reference : String) (existing : Option Syntax.Token) : Declaration :=
  .resource
    { leading := [.decorator ⟨⟨.atSign, "@", ⟨0, 1⟩⟩,
        ⟨⟨⟨.identifier, decorator, ⟨2, 8⟩⟩⟩, ⟨.leftParen, "(", ⟨11, 1⟩⟩,
          [⟨.null ⟨⟨.nullKeyword, "null", ⟨13, 4⟩⟩⟩, none⟩], ⟨.rightParen, ")", ⟨18, 1⟩⟩⟩⟩]
      keyword := ⟨.identifier, "resource", ⟨20, 8⟩⟩
      name := ⟨⟨.identifier, name, ⟨29, 5⟩⟩⟩
      type := .string ⟨[⟨.wholeString, "'" ++ reference ++ "'", ⟨35, 46⟩⟩], [], [reference]⟩
      existing := existing
      assignment := .token ⟨.assignment, "=", ⟨91, 1⟩⟩
      condition := none
      body := .object ⟨⟨.leftBrace, "\x7b", ⟨93, 1⟩⟩, [], ⟨.rightBrace, "\x7d", ⟨95, 1⟩⟩⟩ }

/-- A resource and a use of it as an existing one, in mixed case and in lowercase. -/
def twoSpellings : List Declaration :=
  [resourceNamed "first" "listed" Reference.storage.text none,
    resourceNamed "second" "absent" Reference.storage.lowercase.text
      (some ⟨.identifier, "existing", ⟨82, 8⟩⟩)]

theorem twoSpellings_located : ∀ d ∈ twoSpellings, d.Located := by
  have hlocated : ∀ name decorator reference existing,
      (resourceNamed name decorator reference existing).Located := by
    intro name decorator reference existing
    refine ⟨⟨_, rfl⟩, ⟨_, rfl⟩, ?_⟩
    intro use huse
    rw [List.mem_singleton.mp huse]
    exact ⟨_, rfl⟩
  intro d hd
  rcases List.mem_pair.mp hd with rfl | rfl
  · exact hlocated _ _ _ _
  · exact hlocated _ _ _ _

/-- Both tasks miss and ask the catalog before either settles; both declarations are bound as they would
    be alone. -/
theorem twoSpellings_bound :
    (∀ d ∈ Decorator.standard ++ [listed], d ∈ Decorator.standard ∨ d.RespectsEquality) ∧
      (∀ d ∈ twoSpellings, d.Located) ∧
      ∃ results,
        ((start (Traffic.run Catalog.storage.provider .start [.ask ⟨.tenant, .storage⟩, .advance 0]).cache
          twoSpellings).run {} ((Decorator.standard ++ [listed]).foldl Registry.register .empty)
            Catalog.storage.provider [0, 1, 1, 0, 0, 1, 1, 0]).Finished results ∧
        List.Forall₂ (fun d b => ∃ alone, bindDeclaration {}
          ((Decorator.standard ++ [listed]).foldl Registry.register .empty) Catalog.storage.provider d =
            .ok alone ∧ b.Agrees alone) twoSpellings results := by
  have hdecorators : ∀ d ∈ Decorator.standard ++ [listed],
      d ∈ Decorator.standard ∨ d.RespectsEquality := by
    intro d hd
    rcases List.mem_append.mp hd with hstandard | hlisted
    · exact Or.inl hstandard
    · rw [List.mem_singleton.mp hlisted]
      exact Or.inr listed_respectsEquality
  obtain ⟨hresults, hends, -⟩ := bound_as_alone hdecorators twoSpellings_located {} Catalog.storage
    [.ask ⟨.tenant, .storage⟩, .advance 0] [0, 1, 1, 0, 0, 1, 1, 0]
  obtain ⟨results, hfinished⟩ := hends (by decide)
  exact ⟨hdecorators, twoSpellings_located, results, hfinished, hresults results hfinished⟩

end Batch

end ResourceLang

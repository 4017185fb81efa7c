import Mathlib.Data.List.ReduceOption
import ResourceLang.Decorator.Evaluation
import ResourceLang.Proofs.Decorator.History
import ResourceLang.Proofs.Keyed
import ResourceLang.Proofs.Outcome

/-!
# Applications — what each decorator of a declaration adds

The decorators of a declaration are applied in one pass that keeps metadata, a type and a list of unknown names. This
module says what comes out of the pass without going through it. The applications of unknown decorators are reported
one by one. The others make the type smaller in turn, and each emits metadata for the type that it finds; of all that
is emitted under one key, the first emission decides its place and the last one its value.

* **`Evaluation.step_of_known`**, **`Evaluation.step_of_unknown`** — one application.
* **`Evaluation.run_eq_ok_iff`** — any number of applications.
* **`evaluateDecorators_outcome`** — the decorators of a declaration.
-/

namespace ResourceLang

open Syntax (Declaration DecoratorUse Node)

/-- An application of a decorator that is registered. -/
structure Application where
  use : DecoratorUse
  decorator : Decorator

namespace Application

/-- The applications of registered decorators, each of the one registered last under its name. -/
def known (registered : List Decorator) (uses : List DecoratorUse) : List Application :=
  uses.filterMap fun use => (Decorator.lastNamed registered use.name).map fun d => ⟨use, d⟩

/-- The applications of decorators that are not registered. -/
def unknown (registered : List Decorator) (uses : List DecoratorUse) : List DecoratorUse :=
  uses.filter fun use => (Decorator.lastNamed registered use.name).isNone

/-- The type that applications leave, one after the other. -/
def narrowed (type : Ty) (applications : List Application) : Ty :=
  applications.foldl (fun t a => a.decorator.narrow t) type

/-- The types that applications find: the first one finds `type`, and each later one finds what those before it
    left. -/
def found (type : Ty) (applications : List Application) : List Ty :=
  applications.scanl (fun t a => a.decorator.narrow t) type

/-- The metadata that applications emit, each for the type that it finds. -/
def emitted (type : Ty) (applications : List Application) : List (String × Node) :=
  (List.zipWith (fun a t => a.decorator.metadata a.use t) applications (found type applications)).reduceOption

/-- The report of an application of an unknown decorator on the declaration `owner`. -/
def report (owner : String) (use : DecoratorUse) : Error :=
  ⟨.unknownDecorator use.name, some ⟨some owner, use.span.toOption⟩⟩

theorem known_append (registered : List Decorator) (uses uses' : List DecoratorUse) :
    known registered (uses ++ uses') = known registered uses ++ known registered uses' :=
  List.filterMap_append

theorem unknown_append (registered : List Decorator) (uses uses' : List DecoratorUse) :
    unknown registered (uses ++ uses') = unknown registered uses ++ unknown registered uses' :=
  List.filter_append uses uses'

section Cons

variable {registered : List Decorator} {use : DecoratorUse}

theorem known_cons_of_some {d : Decorator} (h : Decorator.lastNamed registered use.name = some d)
    (uses : List DecoratorUse) : known registered (use :: uses) = ⟨use, d⟩ :: known registered uses :=
  List.filterMap_cons_some (by rw [h]; rfl)

theorem known_cons_of_none (h : Decorator.lastNamed registered use.name = none) (uses : List DecoratorUse) :
    known registered (use :: uses) = known registered uses :=
  List.filterMap_cons_none (by rw [h]; rfl)

theorem unknown_cons_of_some {d : Decorator} (h : Decorator.lastNamed registered use.name = some d)
    (uses : List DecoratorUse) : unknown registered (use :: uses) = unknown registered uses :=
  List.filter_cons_of_neg (by rw [h]; exact Bool.false_ne_true)

theorem unknown_cons_of_none (h : Decorator.lastNamed registered use.name = none) (uses : List DecoratorUse) :
    unknown registered (use :: uses) = use :: unknown registered uses :=
  List.filter_cons_of_pos (by rw [h]; rfl)

theorem emitted_cons (type : Ty) (a : Application) (applications : List Application) :
    emitted type (a :: applications) =
      (a.decorator.metadata a.use type).toList ++ emitted (a.decorator.narrow type) applications := by
  rw [emitted, found, List.scanl_cons, List.zipWith_cons_cons]
  cases a.decorator.metadata a.use type with
  | none => exact List.reduceOption_cons_of_none _
  | some entry => exact List.reduceOption_cons_of_some entry _

end Cons

end Application

/-! ## The pass -/

namespace Evaluation

/-- The state that applications lead to: their emissions are written, the type is narrowed, and what is unknown is
    reported. -/
def after (registered : List Decorator) (owner : String) (e : Evaluation) (uses : List DecoratorUse) :
    Evaluation where
  metadata := e.metadata.insertAll (Application.emitted e.narrowed (Application.known registered uses))
  narrowed := Application.narrowed e.narrowed (Application.known registered uses)
  unknown := e.unknown ++ (Application.unknown registered uses).map (Application.report owner)

section After

variable {registered : List Decorator} (owner : String) (e : Evaluation) {use : DecoratorUse}

theorem after_nil : after registered owner e [] = e := by
  obtain ⟨metadata, narrowed, unknown⟩ := e
  show Evaluation.mk metadata narrowed (unknown ++ []) = ⟨metadata, narrowed, unknown⟩
  rw [List.append_nil]

theorem after_cons_of_some {d : Decorator} (h : Decorator.lastNamed registered use.name = some d)
    (uses : List DecoratorUse) :
    after registered owner e (use :: uses) = after registered owner (e.apply d use) uses := by
  rw [after, after, Application.known_cons_of_some h, Application.unknown_cons_of_some h,
    Application.emitted_cons, Keyed.insertAll, List.foldl_append, apply]
  cases d.metadata use e.narrowed <;> rfl

theorem after_cons_of_none (h : Decorator.lastNamed registered use.name = none) (uses : List DecoratorUse) :
    after registered owner e (use :: uses) =
      after registered owner { e with unknown := e.unknown ++ [Application.report owner use] } uses := by
  rw [after, after, Application.known_cons_of_none h, Application.unknown_cons_of_none h, List.map_cons,
    List.append_cons]

/-- The keys are in the order in which they are first emitted. -/
theorem keys_after (type : Ty) (uses : List DecoratorUse) :
    (after registered owner (.start type) uses).metadata.keys =
      ((Application.emitted type (Application.known registered uses)).map Prod.fst).eraseDups :=
  Keyed.keys_insertAll _

/-- Under each key is the value that is emitted last. -/
theorem get?_after (type : Ty) (uses : List DecoratorUse) (key : String) :
    (after registered owner (.start type) uses).metadata.get? key =
      (Application.emitted type (Application.known registered uses)).reverse.lookup key :=
  (Keyed.get?_insertAll .empty _ key).trans Option.or_none

end After

variable {registry : Registry} {registered : List Decorator} (hregistry : registry.History registered)
  (owner : String) (e : Evaluation) {use : DecoratorUse}

include hregistry

/-- An application of a registered decorator evaluates and narrows by it. -/
theorem step_of_known {d : Decorator} (h : Decorator.lastNamed registered use.name = some d) :
    step registry owner e use = .ok (e.apply d use) := by
  rw [step, hregistry.lookup_eq, h, Option.elim_some]

/-- An application of an unknown decorator is reported where it stands, and changes nothing else. -/
theorem step_of_unknown (h : Decorator.lastNamed registered use.name = none) {e' : Evaluation} :
    step registry owner e use = .ok e' ↔
      (∃ span, use.span = .ok span) ∧ { e with unknown := e.unknown ++ [Application.report owner use] } = e' := by
  rw [step, hregistry.lookup_eq, h, Option.elim_none, bind_eq_ok_iff, Application.report]
  constructor
  · rintro ⟨span, hspan, h⟩
    rw [hspan]
    exact ⟨⟨span, rfl⟩, Except.ok.inj h⟩
  · rintro ⟨⟨span, hspan⟩, rfl⟩
    refine ⟨span, hspan, ?_⟩
    rw [hspan]
    rfl

/-- **The pass**: it gives a result exactly if the unknown applications cover regions of the text, and the result is
    the state that the applications lead to. -/
theorem run_eq_ok_iff {uses : List DecoratorUse} {e' : Evaluation} :
    uses.foldlM (step registry owner) e = .ok e' ↔
      (∀ use ∈ Application.unknown registered uses, ∃ span, use.span = .ok span) ∧
        after registered owner e uses = e' := by
  -- By induction on the applications from any state, since each leaves the rest another state to begin with.
  induction uses generalizing e with
  | nil =>
      rw [after_nil]
      exact ⟨fun h => ⟨nofun, Except.ok.inj h⟩, fun h => congrArg Except.ok h.2⟩
  | cons use rest ih =>
      rw [List.foldlM_cons]
      cases h : Decorator.lastNamed registered use.name with
      | some d =>
          rw [step_of_known hregistry owner e h, Application.unknown_cons_of_some h,
            after_cons_of_some owner e h]
          exact ih (e.apply d use)
      | none =>
          rw [bind_eq_ok_iff, Application.unknown_cons_of_none h, after_cons_of_none owner e h,
            List.forall_mem_cons, and_assoc, ← ih]
          constructor
          · rintro ⟨e₁, hstep, hrest⟩
            obtain ⟨hspan, rfl⟩ := (step_of_unknown hregistry owner e h).mp hstep
            exact ⟨hspan, hrest⟩
          · rintro ⟨hspan, hrest⟩
            exact ⟨_, (step_of_unknown hregistry owner e h).mpr ⟨hspan, rfl⟩, hrest⟩

end Evaluation

/-! ## Declarations -/

section Declarations

variable {registry : Registry} {registered : List Decorator}

/-- The decorators of a declaration give a result exactly if the unknown ones cover regions of the text, and the
    result is the state that they lead to. -/
theorem evaluateDecorators_eq_ok_iff (hregistry : registry.History registered) {d : Declaration} {type : Ty}
    {e : Evaluation} :
    evaluateDecorators registry d type = .ok e ↔
      (∀ use ∈ Application.unknown registered d.decorators, ∃ span, use.span = .ok span) ∧
        Evaluation.after registered d.name.name (.start type) d.decorators = e :=
  Evaluation.run_eq_ok_iff hregistry d.name.name (.start type)

/-- Without one application of an unknown decorator, the others lead to the same metadata and the same type, and
    the report of that one is missing. -/
theorem Evaluation.after_without {owner : String} {type : Ty} {use : DecoratorUse}
    (h : Decorator.lastNamed registered use.name = none) (earlier later : List DecoratorUse) :
    let whole := after registered owner (.start type) (earlier ++ use :: later)
    let rest := after registered owner (.start type) (earlier ++ later)
    rest.metadata = whole.metadata ∧ rest.narrowed = whole.narrowed ∧
      ∃ reports reports' : List Error,
        whole.unknown = reports ++ Application.report owner use :: reports' ∧
          rest.unknown = reports ++ reports' := by
  intro whole rest
  have hknown : Application.known registered (earlier ++ use :: later) =
      Application.known registered (earlier ++ later) := by
    rw [Application.known_append, Application.known_append, Application.known_cons_of_none h]
  have hunknown : Application.unknown registered (earlier ++ use :: later) =
      Application.unknown registered earlier ++ use :: Application.unknown registered later := by
    rw [Application.unknown_append, Application.unknown_cons_of_none h]
  refine ⟨?_, ?_, (Application.unknown registered earlier).map (Application.report owner),
    (Application.unknown registered later).map (Application.report owner), ?_, ?_⟩
  · show Keyed.insertAll _ (Application.emitted type _) = Keyed.insertAll _ (Application.emitted type _)
    rw [hknown]
  · show Application.narrowed type _ = Application.narrowed type _
    rw [hknown]
  · show [] ++ (Application.unknown registered (earlier ++ use :: later)).map _ = _
    rw [hunknown, List.nil_append, List.map_append, List.map_cons]
  · show [] ++ (Application.unknown registered (earlier ++ later)).map _ = _
    rw [List.nil_append, Application.unknown_append, List.map_append]

/-- **What the decorators of a declaration come to.** Those that are not registered are reported, each once and in
    source order, by name and with the declaration and the region where they stand. The type is narrowed by the
    others in turn, and each is evaluated for the type that it finds. The keys of the metadata are in the order in
    which they were first emitted, and under each key is the value that was emitted last.

    Leaving out the application of an unknown decorator leaves out its report and changes nothing else. What is
    registered under other names does not matter for an application, whatever was applied before it. -/
theorem evaluateDecorators_outcome (hregistry : registry.History registered) {d : Declaration}
    (hspans : ∀ use ∈ d.decorators, ∃ span, use.span = .ok span) (type : Ty) :
    let applications := Application.known registered d.decorators
    let emitted := Application.emitted type applications
    ∃ e, evaluateDecorators registry d type = .ok e ∧
      e.unknown = (Application.unknown registered d.decorators).map (Application.report d.name.name) ∧
      e.narrowed = Application.narrowed type applications ∧
      e.metadata.keys = (emitted.map Prod.fst).eraseDups ∧
      (∀ key, e.metadata.get? key = emitted.reverse.lookup key) ∧
      (∀ (d' : Declaration) (before after : List Node) (use : DecoratorUse),
        d.leading = before ++ .decorator use :: after → d'.leading = before ++ after → d'.name = d.name →
        Decorator.lastNamed registered use.name = none →
        ∃ e', evaluateDecorators registry d' type = .ok e' ∧
          e'.metadata = e.metadata ∧ e'.narrowed = e.narrowed ∧
          ∃ reports reports' : List Error,
            e.unknown = reports ++ Application.report d.name.name use :: reports' ∧
              e'.unknown = reports ++ reports') ∧
      ∀ use ∈ d.decorators, ∀ registry' registered', registry'.History registered' →
        ((registered'.filter fun x => use.name == x.name) = registered.filter fun x => use.name == x.name) →
        ∀ e₁, Evaluation.step registry' d.name.name e₁ use = Evaluation.step registry d.name.name e₁ use := by
  intro applications emitted
  have hplaced : ∀ use ∈ Application.unknown registered d.decorators, ∃ span, use.span = .ok span :=
    fun use huse => hspans use (List.mem_of_mem_filter huse)
  refine ⟨_, (evaluateDecorators_eq_ok_iff hregistry).mpr ⟨hplaced, rfl⟩, rfl, rfl,
    Evaluation.keys_after d.name.name type d.decorators, Evaluation.get?_after d.name.name type d.decorators, ?_, ?_⟩
  · intro d' before after use hleading hleading' hname hunknown
    have hdecorators : d.decorators =
        before.filterMap Node.asDecorator? ++ use :: after.filterMap Node.asDecorator? := by
      rw [Declaration.decorators, hleading, List.filterMap_append]
      rfl
    have hdecorators' : d'.decorators =
        before.filterMap Node.asDecorator? ++ after.filterMap Node.asDecorator? := by
      rw [Declaration.decorators, hleading', List.filterMap_append]
    refine ⟨_, (evaluateDecorators_eq_ok_iff hregistry).mpr ⟨?_, rfl⟩, ?_⟩
    · intro use' huse'
      refine hspans use' ?_
      have huse' := List.mem_of_mem_filter huse'
      rw [hdecorators', List.mem_append] at huse'
      rw [hdecorators, List.mem_append]
      exact huse'.imp_right (List.mem_cons_of_mem use)
    · rw [hname, hdecorators, hdecorators']
      exact Evaluation.after_without hunknown _ _
  · intro use _ registry' registered' hregistry' hsame e₁
    rw [Evaluation.step, Evaluation.step, hregistry.lookup_eq, hregistry'.lookup_eq,
      Decorator.lastNamed_congr hsame]

end Declarations

/-! ## A parameter whose type changes between two applications -/

/-- Records its argument under the name of the type that it finds, and makes lists of what it decorates. -/
def Decorator.listing : Decorator where
  target := .any
  signature := { name := "maxLength" }
  metadata := fun use type => firstArgument type.name use
  narrow := .array

open Syntax.Layout in
/-- The parameter `p` with a decorator that is applied twice, one that is unknown, and a description. -/
def listedParameter : Syntax.Layout Syntax.ParameterDeclaration := do
  let first ← decorator "maxLength" (return [← boolean true])
  let unknown ← decorator "frobnicate" (pure [])
  let described ← decorator "description" (return [← string "short"])
  let second ← decorator "maxLength" (return [← boolean false])
  parameter [first, unknown, described, second] "p" "string"

/-- The decorator that replaced a standard one emits under two keys, and the unknown one stands at its place. -/
theorem decorators_of_listedParameter :
    ∃ p, (listedParameter.runAt 0).1 = .ok p ∧
      (∀ use ∈ (Declaration.parameter p).decorators, ∃ span, use.span = .ok span) ∧
      ∃ e, evaluateDecorators (Registry.standard.register .listing) (.parameter p) .string = .ok e ∧
        e.narrowed = .array (.array .string) ∧ e.metadata.keys = ["string", "description", "string[]"] ∧
        e.unknown = [⟨.unknownDecorator "frobnicate", some ⟨some "p", some ⟨21, 16⟩⟩⟩] := by
  obtain ⟨p, hp, hspans⟩ : ∃ p, (listedParameter.runAt 0).1 = .ok p ∧
      ∀ use ∈ (Declaration.parameter p).decorators, ∃ span, use.span = .ok span :=
    ⟨_, rfl, List.forall_mem_cons.mpr ⟨⟨_, rfl⟩, List.forall_mem_cons.mpr ⟨⟨_, rfl⟩,
      List.forall_mem_cons.mpr ⟨⟨_, rfl⟩, List.forall_mem_singleton.mpr ⟨_, rfl⟩⟩⟩⟩⟩
  obtain ⟨e, he, hunknown, hnarrowed, hkeys, -⟩ :=
    evaluateDecorators_outcome (.register .ofStandard .listing) hspans .string
  obtain rfl := Except.ok.inj hp
  exact ⟨_, rfl, hspans, e, he, hnarrowed, hkeys, hunknown⟩

end ResourceLang

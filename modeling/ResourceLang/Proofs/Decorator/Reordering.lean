import ResourceLang.Proofs.Decorator.Applications

/-!
# Reordering — the standard decorators commute

The standard decorators record their arguments whatever the type is, and the only one that changes the type does so
once and for all. Applications of different ones do not see each other, so only the order of those that have one name
can matter.

* **`Application.narrowed_standard`**, **`Application.emitted_standard`** — type and metadata without the pass.
* **`evaluateDecorators_standard`** — the outcome, and the same outcome for all orders that keep the order of
  applications with one name.
-/

namespace ResourceLang

open Syntax (Argument Declaration DecoratorUse Node)

/-! ## One application of a standard decorator -/

namespace Decorator

/-- Which standard decorators record an argument, and under which keys. -/
def standardKeys : List (String × String) :=
  [("allowed", allowedKey), ("minValue", "minValue"), ("maxValue", "maxValue"), ("minLength", "minLength"),
    ("maxLength", "maxLength"), ("description", "description"), ("metadata", "metadata")]

/-- What an application of a standard decorator records: its first argument, under the key of the decorator. -/
def recorded? (use : DecoratorUse) : Option (String × Node) :=
  (standardKeys.lookup use.name).bind fun key => firstArgument key use

/-- The argument that an application of a standard decorator records under the key. -/
def recordedUnder? (key : String) (use : DecoratorUse) : Option Node :=
  if standardKeys.lookup use.name = some key then use.arguments.head?.map Argument.expression else none

/-- The decorators that record do so for every type. -/
theorem metadata_of_standard {d : Decorator} {use : DecoratorUse} (hd : d ∈ standard) (hname : d.name = use.name)
    (t : Ty) : d.metadata use t = recorded? use := by
  rw [recorded?, ← hname]
  simp only [standard, List.mem_cons, List.not_mem_nil, or_false] at hd
  rcases hd with rfl | rfl | rfl | rfl | rfl | rfl | rfl | rfl <;> rfl

/-- Only one of them changes types. -/
theorem narrow_of_standard {d : Decorator} (hd : d ∈ standard) (t : Ty) :
    d.narrow t = if d.name = "secure" then t.withValidation .secure else t := by
  simp only [standard, List.mem_cons, List.not_mem_nil, or_false] at hd
  rcases hd with rfl | rfl | rfl | rfl | rfl | rfl | rfl | rfl <;> rfl

theorem mem_standardKeys {name key : String} (h : standardKeys.lookup name = some key) :
    (name, key) ∈ standardKeys := by
  obtain ⟨before, after, heq, -⟩ := List.lookup_eq_some_iff.mp h
  rw [heq]
  exact List.mem_append_cons_self

/-- Each key belongs to one decorator. -/
theorem standardKeys_injective {name name' key : String} (h : standardKeys.lookup name = some key)
    (h' : standardKeys.lookup name' = some key) : name = name' := by
  have hinjective : ∀ a ∈ standardKeys, ∀ b ∈ standardKeys, a.2 = b.2 → a.1 = b.1 := by decide
  exact hinjective _ (mem_standardKeys h) _ (mem_standardKeys h') rfl

/-- An unknown name records nothing. -/
theorem recorded?_of_unknown {use : DecoratorUse} (h : lastNamed standard use.name = none) :
    recorded? use = none := by
  have hnames : ∀ entry ∈ standardKeys, ∃ d ∈ standard, d.name = entry.1 := by decide
  have hnone : standardKeys.lookup use.name = none := by
    cases hkey : standardKeys.lookup use.name with
    | none => rfl
    | some key =>
        obtain ⟨d, hd, hname⟩ := hnames _ (mem_standardKeys hkey)
        exact absurd hname (lastNamed_eq_none_iff.mp h d hd)
  rw [recorded?, hnone]
  rfl

theorem not_secure_of_unknown {name : String} (h : lastNamed standard name = none) : name ≠ "secure" :=
  fun hsecure => lastNamed_eq_none_iff.mp h secure List.mem_cons_self hsecure.symm

/-- What is recorded under a key is recorded by applications with one name. -/
theorem exists_name_of_key (key : String) :
    ∃ name, ∀ use : DecoratorUse, use.name ≠ name → recordedUnder? key use = none := by
  by_cases hkey : ∃ name, standardKeys.lookup name = some key
  · obtain ⟨name, hname⟩ := hkey
    exact ⟨name, fun use huse => if_neg fun h => huse (standardKeys_injective h hname)⟩
  · exact ⟨"", fun use _ => if_neg fun h => hkey ⟨use.name, h⟩⟩

theorem recordedUnder?_eq_bind (key : String) (use : DecoratorUse) :
    recordedUnder? key use =
      (recorded? use).bind fun entry => if key == entry.1 then some entry.2 else none := by
  rw [recordedUnder?, recorded?]
  cases standardKeys.lookup use.name with
  | none => rfl
  | some key' =>
      rw [Option.bind_some, firstArgument]
      by_cases hkey : key' = key
      · rw [if_pos (congrArg some hkey), hkey]
        cases use.arguments.head? with
        | none => rfl
        | some argument => exact (if_pos (BEq.refl key)).symm
      · rw [if_neg fun h => hkey (Option.some.inj h)]
        cases use.arguments.head? with
        | none => rfl
        | some argument => exact (if_neg fun h => hkey (eq_of_beq h).symm).symm

end Decorator

/-! ## All applications of standard decorators -/

namespace Application

open Decorator (standard)

/-- The type is marked as secret if some application says so, wherever it stands. -/
theorem narrowed_standard (type : Ty) (uses : List DecoratorUse) :
    narrowed type (known standard uses) =
      if ∃ use ∈ uses, use.name = "secure" then type.withValidation .secure else type := by
  induction uses generalizing type with
  | nil => rfl
  | cons use rest ih =>
      simp only [List.exists_mem_cons_iff]
      cases h : Decorator.lastNamed standard use.name with
      | none =>
          rw [known_cons_of_none h, ih]
          simp only [Decorator.not_secure_of_unknown h, false_or]
      | some d =>
          obtain ⟨hd, hname⟩ := Decorator.of_lastNamed h
          have hfirst : narrowed type (known standard (use :: rest)) =
              narrowed (d.narrow type) (known standard rest) := by
            rw [known_cons_of_some h]
            rfl
          rw [hfirst, ih, Decorator.narrow_of_standard hd, hname]
          -- Once the type is marked, it does not matter whether the rest marks it again.
          by_cases hsecure : use.name = "secure"
          · rw [if_pos hsecure, if_pos (Or.inl hsecure), Ty.withValidation_withValidation, FlagSet.insert_self, ite_self]
          · simp only [hsecure, if_false, false_or]

/-- The metadata is what each application records by itself. -/
theorem emitted_standard (type : Ty) (uses : List DecoratorUse) :
    emitted type (known standard uses) = uses.filterMap Decorator.recorded? := by
  induction uses generalizing type with
  | nil => rfl
  | cons use rest ih =>
      cases h : Decorator.lastNamed standard use.name with
      | none => rw [known_cons_of_none h, List.filterMap_cons_none (Decorator.recorded?_of_unknown h), ih]
      | some d =>
          obtain ⟨hd, hname⟩ := Decorator.of_lastNamed h
          rw [known_cons_of_some h, emitted_cons, ih, Decorator.metadata_of_standard hd hname]
          cases hrecorded : Decorator.recorded? use with
          | none => exact (List.filterMap_cons_none hrecorded).symm
          | some entry => exact (List.filterMap_cons_some hrecorded).symm

/-- Under each key stands the argument that was recorded last. -/
theorem get?_standard (owner : String) (type : Ty) (uses : List DecoratorUse) (key : String) :
    (Evaluation.after standard owner (.start type) uses).metadata.get? key =
      (uses.filterMap (Decorator.recordedUnder? key)).getLast? := by
  -- What is found first from the end is the last of all values under the key.
  rw [Evaluation.get?_after, emitted_standard, List.lookup_eq_findSome?, ← List.head?_filterMap, List.filterMap_reverse,
    List.filterMap_filterMap, List.head?_reverse, funext (Decorator.recordedUnder?_eq_bind key)]

/-- The keys are those of standard decorators. -/
theorem keys_standard (owner : String) (type : Ty) (uses : List DecoratorUse) :
    ∀ key ∈ (Evaluation.after standard owner (.start type) uses).metadata.keys,
      ∃ name, (name, key) ∈ Decorator.standardKeys := by
  intro key hkey
  rw [Evaluation.keys_after, List.mem_eraseDups, emitted_standard, List.mem_map] at hkey
  obtain ⟨entry, hentry, rfl⟩ := hkey
  obtain ⟨use, -, hrecorded⟩ := List.mem_filterMap.mp hentry
  obtain ⟨key, hkey, hfirst⟩ := Option.bind_eq_some_iff.mp hrecorded
  obtain ⟨argument, -, rfl⟩ := Option.map_eq_some_iff.mp hfirst
  exact ⟨use.name, Decorator.mem_standardKeys hkey⟩

end Application

/-! ## Orders of decorators -/

/-- The nodes above the first declaration are those above the second one in another order, in which applications
    of decorators with one name have kept theirs. -/
structure Syntax.Declaration.Reorders (d' d : Declaration) : Prop where
  name : d'.name = d.name
  leading : d'.leading.Perm d.leading
  sameName : ∀ name, (d'.decorators.filter fun use => use.name == name) =
    d.decorators.filter fun use => use.name == name

namespace Syntax.Declaration.Reorders

variable {d' d : Declaration}

/-- Neighbours with different names can be exchanged. -/
theorem of_exchange (before after : List Node) {a b : DecoratorUse} (hnames : a.name ≠ b.name)
    (hname : d'.name = d.name) (hleading : d.leading = before ++ .decorator a :: .decorator b :: after)
    (hleading' : d'.leading = before ++ .decorator b :: .decorator a :: after) : d'.Reorders d where
  name := hname
  leading := by
    rw [hleading, hleading']
    exact (List.Perm.swap _ _ after).append_left before
  sameName := by
    intro name
    rw [Declaration.decorators, Declaration.decorators, hleading, hleading', List.filterMap_append,
      List.filterMap_append, List.filter_append, List.filter_append]
    congr 1
    show List.filter _ (b :: a :: _) = List.filter _ (a :: b :: _)
    simp only [List.filter_cons]
    by_cases ha : a.name = name
    · have hb : ¬ (b.name == name) = true := fun hb => hnames (ha.trans (eq_of_beq hb).symm)
      rw [if_neg hb, if_neg hb]
    · have ha : ¬ (a.name == name) = true := fun heq => ha (eq_of_beq heq)
      rw [if_neg ha, if_neg ha]

variable (h : d'.Reorders d)

include h

theorem decorators : d'.decorators.Perm d.decorators := h.leading.filterMap _

theorem unknown (registered : List Decorator) :
    (Application.unknown registered d'.decorators).Perm (Application.unknown registered d.decorators) :=
  h.decorators.filter _

/-- What reads applications of one name only reads the same in both orders. -/
theorem filterMap_eq {α : Type} {f : DecoratorUse → Option α} {name : String}
    (hf : ∀ use : DecoratorUse, use.name ≠ name → f use = none) :
    d'.decorators.filterMap f = d.decorators.filterMap f := by
  have hfilter : ∀ uses : List DecoratorUse,
      uses.filterMap f = (uses.filter fun use => use.name == name).filterMap f := by
    intro uses
    rw [List.filterMap_filter]
    refine List.filterMap_congr fun use _ => ?_
    by_cases hname : (use.name == name) = true
    · rw [if_pos hname]
    · rw [if_neg hname, hf use fun heq => hname (beq_iff_eq.mpr heq)]
  rw [hfilter, hfilter d.decorators, h.sameName name]

end Syntax.Declaration.Reorders

/-- **The standard decorators of a declaration, in any order.** There is a result exactly if the unknown decorators
    cover regions of the text. The type is marked as secret if some decorator is `secure`, and else stays as it is.
    Under each key is the argument that was recorded last by an application that has one, and there are no keys but
    those of the standard decorators.

    So an order that keeps the order of applications with one name gives the same type, the same value under every
    key, and the same reports of unknown decorators in some order. -/
theorem evaluateDecorators_standard (d : Declaration) (type : Ty) :
    ((∃ e, evaluateDecorators .standard d type = .ok e) ↔
      ∀ use ∈ Application.unknown Decorator.standard d.decorators, ∃ span, use.span = .ok span) ∧
    ∀ e, evaluateDecorators .standard d type = .ok e →
      (e.narrowed = if ∃ use ∈ d.decorators, use.name = "secure" then type.withValidation .secure else type) ∧
      (∀ key, e.metadata.get? key = (d.decorators.filterMap (Decorator.recordedUnder? key)).getLast?) ∧
      (∀ key ∈ e.metadata.keys, ∃ name, (name, key) ∈ Decorator.standardKeys) ∧
      ∀ d', d'.Reorders d → ∃ e', evaluateDecorators .standard d' type = .ok e' ∧
        e'.narrowed = e.narrowed ∧ (∀ key, e'.metadata.get? key = e.metadata.get? key) ∧
        e'.unknown.Perm e.unknown := by
  constructor
  · constructor
    · rintro ⟨e, he⟩
      exact ((evaluateDecorators_eq_ok_iff .ofStandard).mp he).1
    · intro hspans
      exact ⟨_, (evaluateDecorators_eq_ok_iff .ofStandard).mpr ⟨hspans, rfl⟩⟩
  intro e he
  obtain ⟨hspans, rfl⟩ := (evaluateDecorators_eq_ok_iff .ofStandard).mp he
  refine ⟨Application.narrowed_standard type d.decorators, Application.get?_standard d.name.name type d.decorators,
    Application.keys_standard d.name.name type d.decorators, ?_⟩
  intro d' hd'
  have hspans' : ∀ use ∈ Application.unknown Decorator.standard d'.decorators, ∃ span, use.span = .ok span :=
    fun use huse => hspans use ((hd'.unknown _).mem_iff.mp huse)
  refine ⟨_, (evaluateDecorators_eq_ok_iff .ofStandard).mpr ⟨hspans', rfl⟩, ?narrowed, ?metadata, ?unknown⟩
  case narrowed =>
    refine (Application.narrowed_standard type d'.decorators).trans
      (Eq.trans ?_ (Application.narrowed_standard type d.decorators).symm)
    simp only [hd'.decorators.mem_iff]
  case metadata =>
    intro key
    -- Only one name records under the key, and the applications with this name have kept their order.
    obtain ⟨name, hname⟩ := Decorator.exists_name_of_key key
    rw [Application.get?_standard, Application.get?_standard, hd'.filterMap_eq hname]
  case unknown =>
    rw [hd'.name]
    exact (hd'.unknown _).map _

/-! ## A parameter that is marked first or in between -/

open Syntax.Layout in
/-- The parameter `p` with a description, which a second application without arguments does not take back. -/
def markedParameter (markedFirst : Bool) : Syntax.Layout Syntax.ParameterDeclaration := do
  let described ← decorator "description" (return [← string "text"])
  let marked ← decorator "secure" (pure [])
  let bare ← decorator "description" (pure [])
  parameter (if markedFirst then [marked, described, bare] else [described, marked, bare]) "p" "string"

/-- It is a secret with a description either way. -/
theorem standard_of_markedParameter :
    ∃ p p', ((markedParameter false).runAt 0).1 = .ok p ∧ ((markedParameter true).runAt 0).1 = .ok p' ∧
      (Declaration.parameter p').Reorders (.parameter p) ∧
      ∃ e e', evaluateDecorators .standard (.parameter p) .string = .ok e ∧
        evaluateDecorators .standard (.parameter p') .string = .ok e' ∧
        e'.narrowed = .primitive .string .secure ∧
        e'.metadata.get? "description" = some (.string ⟨[⟨.wholeString, "'text'", ⟨16, 6⟩⟩], [], ["text"]⟩) := by
  obtain ⟨p, p', hp, hp', hreorders⟩ : ∃ p p', ((markedParameter false).runAt 0).1 = .ok p ∧
      ((markedParameter true).runAt 0).1 = .ok p' ∧ (Declaration.parameter p').Reorders (.parameter p) :=
    ⟨_, _, rfl, rfl, .of_exchange [] [_] (by decide) rfl rfl rfl⟩
  obtain ⟨-, houtcome⟩ := evaluateDecorators_standard (.parameter p) .string
  obtain rfl := Except.ok.inj hp
  obtain ⟨hnarrowed, hget, -, hreorder⟩ := houtcome _ rfl
  obtain ⟨e', he', hnarrowed', hget', -⟩ := hreorder _ hreorders
  exact ⟨_, p', rfl, hp', hreorders, _, e', rfl, he', hnarrowed'.trans hnarrowed, (hget' _).trans (hget _)⟩

end ResourceLang

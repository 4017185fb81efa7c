import ResourceLang.Scope

/-!
# Settings — how a program is bound

The settings say at which scope schemas are looked up, and whether declarations may be bound at the same
time. Binding at the same time gives the same answers, so only the number of declarations decides whether
it is worth it.
-/

namespace ResourceLang

/-- How a program is bound. -/
structure Settings where
  scope : Scope := .resourceGroup
  parallel : Bool := true
  threshold : Nat := 32

namespace Settings

/-- One declaration after the other. -/
def sequential : Settings := { parallel := false }

/-- At the same time whenever there are two declarations. -/
def concurrent : Settings := { threshold := 0 }

/-- Whether a program of `count` declarations is bound at the same time. -/
def runsParallel (s : Settings) (count : Nat) : Bool :=
  s.parallel && max s.threshold 2 ≤ count

end Settings

end ResourceLang

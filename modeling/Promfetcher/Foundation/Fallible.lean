/-!
# Computations that fail

A specification of a computation in `Except` says which errors are allowed and
what is promised of a value that it returns. The rules follow the program: a step
after another one may rely on what the first one promises.
-/

namespace Foundation

universe u v

variable {Error : Type u} {Value Result : Type v} {allowed : Error → Prop}

/-- The error is one that is allowed, or the value is as it has been promised. -/
def Meets (allowed : Error → Prop) (promised : Value → Prop) : Except Error Value → Prop
  | .error err => allowed err
  | .ok value => promised value

namespace Meets

theorem value {promised : Value → Prop} {computation : Except Error Value} {value : Value}
    (meets : Meets allowed promised computation) (returns : computation = .ok value) :
    promised value := by
  rw [returns] at meets
  exact meets

theorem error {promised : Value → Prop} {computation : Except Error Value} {err : Error}
    (meets : Meets allowed promised computation) (fails : computation = .error err) :
    allowed err := by
  rw [fails] at meets
  exact meets

theorem bind {promised : Value → Prop} {ensured : Result → Prop}
    {computation : Except Error Value} {next : Value → Except Error Result}
    (first : Meets allowed promised computation)
    (continues : ∀ value, promised value → Meets allowed ensured (next value)) :
    Meets allowed ensured (computation >>= next) := by
  cases computation with
  | error err => exact first
  | ok value => exact continues value first

theorem map {promised : Value → Prop} {ensured : Result → Prop}
    {computation : Except Error Value} {change : Value → Result}
    (meets : Meets allowed promised computation)
    (changes : ∀ value, promised value → ensured (change value)) :
    Meets allowed ensured (computation.map change) := by
  cases computation with
  | error err => exact meets
  | ok value => exact changes value meets

theorem mono {other : Error → Prop} {promised weaker : Value → Prop}
    {computation : Except Error Value} (meets : Meets allowed promised computation)
    (errors : ∀ err, allowed err → other err) (values : ∀ value, promised value → weaker value) :
    Meets other weaker computation := by
  cases computation with
  | error err => exact errors err meets
  | ok value => exact values value meets

theorem weaken {promised weaker : Value → Prop} {computation : Except Error Value}
    (meets : Meets allowed promised computation)
    (values : ∀ value, promised value → weaker value) : Meets allowed weaker computation :=
  meets.mono (fun _ => id) values

/-- A value is as promised by each of two specifications. -/
theorem and {promised also : Value → Prop} {computation : Except Error Value}
    (meets : Meets allowed promised computation)
    (returns : ∀ value, computation = .ok value → also value) :
    Meets allowed (fun value => promised value ∧ also value) computation := by
  cases computation with
  | error err => exact meets
  | ok value => exact ⟨meets, returns value rfl⟩

end Meets

end Foundation

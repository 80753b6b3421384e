/-!
What the result of steps that may fail tells about each of them.
-/

namespace MdxCheck

variable {ε δ α β : Type}

theorem exists_of_bind_ok {first : Except ε α} {next : α → Except ε β} {value : β}
    (done : first >>= next = .ok value) :
    ∃ between, first = .ok between ∧ next between = .ok value := by
  cases first with
  | error error => simp [bind, Except.bind] at done
  | ok between => exact ⟨between, rfl, done⟩

theorem exists_of_map_ok {first : Except ε α} {f : α → β} {value : β}
    (done : first.map f = .ok value) : ∃ before, first = .ok before ∧ f before = value := by
  cases first with
  | error error => simp [Except.map] at done
  | ok before => exact ⟨before, rfl, Except.ok.inj done⟩

theorem eq_ok_of_toOption {result : Except ε α} {value : α}
    (given : result.toOption = some value) : result = .ok value := by
  cases result with
  | error error => simp [Except.toOption] at given
  | ok other => exact congrArg Except.ok (Option.some.inj given)

theorem exists_of_toOption_map {first : Except ε α} {f : α → β} {value : β}
    (shown : (first.map f).toOption = some value) : ∃ before, first = .ok before ∧ f before = value := by
  cases first with
  | error error => simp [Except.map, Except.toOption] at shown
  | ok before => exact ⟨before, rfl, Option.some.inj shown⟩

theorem ok_of_mapError {first : Except ε α} {f : ε → δ} {value : α}
    (done : first.mapError f = .ok value) : first = .ok value := by
  cases first with
  | error error =>
      have failed : Except.error (f error) = Except.ok value := done
      contradiction
  | ok before => exact congrArg Except.ok (Except.ok.inj done)

theorem mapError_ok (f : ε → δ) (value : α) : (Except.ok value).mapError f = .ok value := by
  rfl

end MdxCheck

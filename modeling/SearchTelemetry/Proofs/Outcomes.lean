/-!
# Outcomes — what a success or a failure came from

A computation that may fail gives a result only if each of its parts does, and otherwise the fault of one of them.
-/
namespace SearchTelemetry

variable {ε α β : Type}

theorem ok_of_toOption : ∀ {r : Except ε α} {a : α}, r.toOption = some a → r = .ok a
  | .ok _, _, h => congrArg Except.ok (Option.some.inj h)

theorem error_of_toOption : ∀ {r : Except ε α}, r.toOption = none → ∃ fault, r = .error fault
  | .error fault, _ => ⟨fault, rfl⟩

theorem exists_of_map_eq_ok {f : α → β} : ∀ {r : Except ε α} {b : β}, r.map f = .ok b → ∃ a, r = .ok a ∧ f a = b
  | .ok a, _, h => ⟨a, rfl, Except.ok.inj h⟩

theorem exists_of_bind_eq_ok {f : α → Except ε β} : ∀ {r : Except ε α} {b : β}, r >>= f = .ok b →
    ∃ a, r = .ok a ∧ f a = .ok b
  | .ok a, _, h => ⟨a, rfl, h⟩

theorem map_ne_error {f : α → β} {fault : ε} : ∀ {r : Except ε α}, r ≠ .error fault → r.map f ≠ .error fault
  | .error _, h => fun heq => h (congrArg Except.error (Except.error.inj heq))
  | .ok _, _ => nofun

end SearchTelemetry

import Abacus.Function.Builtin
import Mathlib.Data.List.Nodup

namespace Abacus.Registry

variable {σ : Type} {registry registered : Registry σ} {name : String} {closure : Closure σ}

theorem register_of_frozen (h : registry.isFrozen = true) (name : String) (closure : Closure σ) :
    registry.register name closure = .error (.registryFrozen name) := by
  rw [register, if_pos h]

-- All that a registration can do.
theorem of_register (h : registry.register name closure = .ok registered) :
    registry.isFrozen = false ∧ isValidName name = true ∧
      registered = { registry with entries := put name closure registry.entries } := by
  unfold register at h
  split at h
  · cases h
  · next hfrozen =>
    split at h
    · cases h
    · next hname =>
      cases h
      exact ⟨by simpa using hfrozen, by simpa using hname, rfl⟩

theorem names_put (name : String) (closure : Closure σ) (entries : List (String × Closure σ)) :
    (put name closure entries).map Prod.fst =
      if name ∈ entries.map Prod.fst then entries.map Prod.fst
      else entries.map Prod.fst ++ [name] := by
  induction entries with
  | nil => rfl
  | cons entry rest ih =>
    by_cases hsame : entry.1 = name
    · simp [put, hsame]
    · simp only [put, if_neg hsame, List.map_cons, ih, List.mem_cons, Ne.symm hsame, false_or]
      split <;> rfl

theorem names_of_register (h : registry.register name closure = .ok registered) :
    registered.names = if name ∈ registry.names then registry.names
      else registry.names ++ [name] := by
  obtain ⟨-, -, rfl⟩ := of_register h
  exact names_put name closure registry.entries

-- The registries that there can be: an empty one, and what registrations make of it until it is
-- frozen.
inductive Registered : Registry σ → Prop
  | empty : Registered {}
  | register {registry registered : Registry σ} {name : String} {closure : Closure σ} :
      Registered registry → registry.register name closure = .ok registered → Registered registered
  | freeze {registry : Registry σ} : Registered registry → Registered registry.freeze

namespace Registered

theorem registerAll (h : registry.Registered) (entries : List (String × Closure σ))
    (hentries : entries.foldlM (fun registry entry => registry.register entry.1 entry.2) registry =
      .ok registered) : registered.Registered := by
  induction entries generalizing registry with
  | nil =>
    cases hentries
    exact h
  | cons entry entries ih =>
    rw [List.foldlM_cons] at hentries
    cases hentry : registry.register entry.1 entry.2 with
    | error fault =>
      rw [hentry] at hentries
      cases hentries
    | ok between =>
      rw [hentry] at hentries
      exact ih (h.register hentry) hentries

theorem isValidName (h : registry.Registered) :
    ∀ name ∈ registry.names, Registry.isValidName name = true := by
  induction h with
  | empty => exact nofun
  | freeze _ ih => exact ih
  | register _ hregister ih =>
    intro name hname
    rw [names_of_register hregister] at hname
    split at hname
    · exact ih name hname
    · rcases List.mem_append.mp hname with hname | hname
      · exact ih name hname
      · rw [List.mem_singleton.mp hname]
        exact (of_register hregister).2.1

theorem nodup (h : registry.Registered) : registry.names.Nodup := by
  induction h with
  | empty => exact List.nodup_nil
  | freeze _ ih => exact ih
  | register _ hregister ih =>
    rw [names_of_register hregister]
    split
    · exact ih
    · next hnew =>
      rw [← List.concat_eq_append]
      exact ih.concat hnew

end Registered

theorem registered_standard : standard.Registered :=
  Registered.empty.registerAll (Builtin.all Dice.draw) rfl

end Abacus.Registry

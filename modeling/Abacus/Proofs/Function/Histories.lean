import Abacus.Calculator
import Abacus.Proofs.Function.Registry

namespace Abacus

-- What may be asked of a registry that can change it.
inductive Operation (σ : Type)
  | register (name : String) (closure : Closure σ)
  | freeze

namespace Registry

variable {σ : Type} {registry start : Registry σ} {name : String} {closure : Closure σ}
  {operation : Operation σ} {operations : List (Operation σ)} {given : List (String × Closure σ)}

def perform (registry : Registry σ) : Operation σ → Except Fault (Registry σ)
  | .register name closure => registry.register name closure
  | .freeze => .ok registry.freeze

-- A refused operation leaves the registry as it is.
def after (registry : Registry σ) (operation : Operation σ) : Registry σ :=
  match registry.perform operation with
  | .ok changed => changed
  | .error _ => registry

def afterAll (registry : Registry σ) (operations : List (Operation σ)) : Registry σ :=
  operations.foldl after registry

theorem afterAll_append (registry : Registry σ) (front back : List (Operation σ)) :
    registry.afterAll (front ++ back) = (registry.afterAll front).afterAll back :=
  List.foldl_append

-- What an operation registers, if it does.
def entered (registry : Registry σ) : Operation σ → List (String × Closure σ)
  | .register name closure =>
      match registry.register name closure with
      | .ok _ => [(name, closure)]
      | .error _ => []
  | .freeze => []

-- The registrations that succeed, in order.
def accepted (registry : Registry σ) : List (Operation σ) → List (String × Closure σ)
  | [] => []
  | operation :: operations =>
      registry.entered operation ++ (registry.after operation).accepted operations

-- A registry with functions that are registered one after the other.
def filled (entries : List (String × Closure σ)) : Except Fault (Registry σ) :=
  entries.foldlM (fun registry entry => registry.register entry.1 entry.2) {}

theorem get?_put (name : String) (closure : Closure σ) (registry : Registry σ) (other : String) :
    ({ registry with entries := put name closure registry.entries } : Registry σ).get? other =
      if other = name then some closure else registry.get? other := by
  obtain ⟨entries, isFrozen⟩ := registry
  simp only [get?]
  induction entries with
  | nil =>
    by_cases h : other = name
    · simp [put, h]
    · simp [put, h, Ne.symm h]
  | cons entry rest ih =>
    by_cases hsame : entry.1 = name
    · by_cases h : other = name
      · simp [put, hsame, h]
      · simp [put, hsame, h, Ne.symm h]
    · by_cases hother : entry.1 = other
      · have hne : other ≠ name := hother ▸ hsame
        simp [put, hother, hne]
      · simpa [put, hsame, hother] using ih

-- The names stand in the order of their first entries, each with the function of its last one.
structure Reflects (registry : Registry σ) (entries : List (String × Closure σ)) : Prop where
  names_eq : registry.names = (entries.map Prod.fst).eraseDups
  get?_eq : ∀ name, registry.get? name =
    (entries.reverse.find? (·.1 == name)).map Prod.snd

theorem reflects_empty : ({} : Registry σ).Reflects [] where
  names_eq := rfl
  get?_eq _ := rfl

theorem eraseDups_concat (names : List String) (name : String) :
    (names ++ [name]).eraseDups =
      if name ∈ names then names.eraseDups else names.eraseDups ++ [name] := by
  rw [List.eraseDups_append, List.removeAll, List.filter_singleton]
  by_cases h : name ∈ names
  · simp [h]
  · have hone : [name].eraseDups = [name] := List.eraseDups_cons
    simp [h, hone]

theorem Reflects.register (h : registry.Reflects given) {registered : Registry σ}
    (hregister : registry.register name closure = .ok registered) :
    registered.Reflects (given ++ [(name, closure)]) where
  names_eq := by
    rw [names_of_register hregister, h.names_eq, List.map_append, List.map_singleton,
      eraseDups_concat]
    simp only [List.mem_eraseDups]
  get?_eq other := by
    obtain ⟨-, -, rfl⟩ := of_register hregister
    rw [get?_put, h.get?_eq, List.reverse_append, List.reverse_singleton, List.singleton_append,
      List.find?_cons]
    by_cases hsame : other = name
    · simp [hsame]
    · have hother : (name == other) = false := beq_false_of_ne (Ne.symm hsame)
      simp [hsame, hother]

-- A step of the history, and then all of it.
theorem Reflects.after (h : registry.Reflects given) (operation : Operation σ) :
    (registry.after operation).Reflects (given ++ registry.entered operation) := by
  cases operation with
  | register name closure =>
    cases hregister : registry.register name closure with
    | error fault => simpa [Registry.after, perform, entered, hregister] using h
    | ok registered => simpa [Registry.after, perform, entered, hregister] using h.register hregister
  | freeze =>
    rw [entered, List.append_nil]
    exact ⟨h.names_eq, h.get?_eq⟩

theorem Reflects.afterAll (h : registry.Reflects given) (operations : List (Operation σ)) :
    (registry.afterAll operations).Reflects (given ++ registry.accepted operations) := by
  induction operations generalizing registry given with
  | nil => rwa [accepted, List.append_nil]
  | cons operation operations ih =>
    rw [accepted, ← List.append_assoc]
    exact ih (h.after operation)

theorem Registered.after (h : registry.Registered) (operation : Operation σ) :
    (registry.after operation).Registered := by
  cases operation with
  | register name closure =>
    cases hregister : registry.register name closure with
    | error fault => simpa [Registry.after, perform, hregister] using h
    | ok registered => simpa [Registry.after, perform, hregister] using h.register hregister
  | freeze => exact h.freeze

theorem Registered.afterAll (h : registry.Registered) (operations : List (Operation σ)) :
    (registry.afterAll operations).Registered := by
  induction operations generalizing registry with
  | nil => exact h
  | cons operation operations ih => exact ih (h.after operation)

-- A frozen registry refuses every registration, and another freeze changes nothing.
theorem after_of_frozen (h : registry.isFrozen = true) (operation : Operation σ) :
    registry.after operation = registry := by
  cases operation with
  | register name closure => simp [after, perform, register_of_frozen h]
  | freeze =>
    obtain ⟨entries, isFrozen⟩ := registry
    cases h
    rfl

theorem afterAll_of_frozen (h : registry.isFrozen = true) (operations : List (Operation σ)) :
    registry.afterAll operations = registry := by
  induction operations with
  | nil => rfl
  | cons operation operations ih =>
    rw [afterAll, List.foldl_cons, after_of_frozen h]
    exact ih

theorem isFrozen_after (h : registry.isFrozen = false) (operation : Operation σ) :
    (registry.after operation).isFrozen = true ↔ operation = .freeze := by
  cases operation with
  | register name closure =>
    cases hregister : registry.register name closure with
    | error fault => simp [after, perform, hregister, h]
    | ok registered =>
      obtain ⟨-, -, rfl⟩ := of_register hregister
      simp [after, perform, hregister, h]
  | freeze => exact iff_of_true rfl rfl

theorem accepted_of_frozen (h : registry.isFrozen = true) (operations : List (Operation σ)) :
    registry.accepted operations = [] := by
  induction operations with
  | nil => rfl
  | cons operation operations ih =>
    rw [accepted, after_of_frozen h, ih, List.append_nil]
    cases operation with
    | register name closure => rw [entered, register_of_frozen h]
    | freeze => rfl

theorem accepted_freeze (registry : Registry σ) (operations : List (Operation σ)) :
    registry.accepted (.freeze :: operations) = [] := by
  have hfrozen : registry.freeze.isFrozen = true := rfl
  exact accepted_of_frozen hfrozen operations

-- Nothing but a freeze closes a registry.
theorem isFrozen_afterAll (h : registry.isFrozen = false) (operations : List (Operation σ)) :
    (registry.afterAll operations).isFrozen = true ↔ .freeze ∈ operations := by
  induction operations generalizing registry with
  | nil => simp [afterAll, h]
  | cons operation operations ih =>
    rw [List.mem_cons, eq_comm (a := Operation.freeze), ← isFrozen_after h operation]
    cases hfrozen : (registry.after operation).isFrozen with
    | true =>
      have hsame : registry.afterAll (operation :: operations) = registry.after operation :=
        afterAll_of_frozen hfrozen operations
      simp [hsame, hfrozen]
    | false => simpa [afterAll] using ih hfrozen

-- Filling a registry is a history of registrations that all succeed.
theorem afterAll_of_foldlM {entries : List (String × Closure σ)}
    (h : entries.foldlM (fun registry entry => registry.register entry.1 entry.2) registry =
      .ok start) :
    registry.afterAll (entries.map fun entry => .register entry.1 entry.2) = start ∧
      registry.accepted (entries.map fun entry => .register entry.1 entry.2) = entries := by
  induction entries generalizing registry with
  | nil =>
    cases h
    exact ⟨rfl, rfl⟩
  | cons entry entries ih =>
    rw [List.foldlM_cons] at h
    cases hregister : registry.register entry.1 entry.2 with
    | error fault =>
      rw [hregister] at h
      cases h
    | ok registered =>
      rw [hregister] at h
      obtain ⟨hafter, haccepted⟩ := ih h
      have hstep : registry.after (.register entry.1 entry.2) = registered := by
        simp [after, perform, hregister]
      refine ⟨?_, ?_⟩
      · rwa [List.map_cons, afterAll, List.foldl_cons, hstep]
      · rw [List.map_cons, accepted, hstep, haccepted]
        simp [entered, hregister]

theorem reflects_filled (h : filled given = .ok start) : start.Reflects given := by
  obtain ⟨hafter, haccepted⟩ := afterAll_of_foldlM h
  have hreflects := reflects_empty.afterAll (given.map fun entry => .register entry.1 entry.2)
  rwa [hafter, haccepted, List.nil_append] at hreflects

theorem isFrozen_filled (h : filled given = .ok start) : start.isFrozen = false := by
  rw [← (afterAll_of_foldlM h).1, ← Bool.not_eq_true, isFrozen_afterAll rfl]
  simp

def ValidName (name : String) : Prop :=
  name ≠ "" ∧ ∀ c ∈ name.toList, c = '_' ∨ Text.isAlphanumeric c = true

theorem isValidName_iff (name : String) : isValidName name = true ↔ ValidName name := by
  simp [isValidName, ValidName, isNameChar]

instance (name : String) : Decidable (ValidName name) := decidable_of_iff _ (isValidName_iff name)

theorem register_of_open (h : registry.isFrozen = false) (name : String) (closure : Closure σ) :
    (registry.register name closure = .error (.invalidName name) ↔ ¬ValidName name) ∧
      ((∃ registered, registry.register name closure = .ok registered) ↔ ValidName name) := by
  rw [← isValidName_iff]
  cases hname : isValidName name <;> simp [register, h, hname]

theorem entered_of_open (h : registry.isFrozen = false) (name : String) (closure : Closure σ) :
    registry.entered (.register name closure) =
      if ValidName name then [(name, closure)] else [] := by
  have hregister := register_of_open h name closure
  by_cases hname : ValidName name
  · obtain ⟨registered, hok⟩ := hregister.2.mpr hname
    rw [if_pos hname, entered, hok]
  · rw [if_neg hname, entered, hregister.1.mpr hname]

theorem put_of_notMem {entries : List (String × Closure σ)} (h : name ∉ entries.map Prod.fst) :
    put name closure entries = entries ++ [(name, closure)] := by
  induction entries with
  | nil => rfl
  | cons entry entries ih =>
    rw [List.map_cons, List.mem_cons, not_or] at h
    obtain ⟨hne, hrest⟩ := h
    rw [put, if_neg (Ne.symm hne), ih hrest, List.cons_append]

-- Valid names that are all different are registered in their order.
theorem foldlM_register {entries : List (String × Closure σ)} (hopen : registry.isFrozen = false)
    (hvalid : ∀ entry ∈ entries, ValidName entry.1)
    (hnodup : (registry.names ++ entries.map Prod.fst).Nodup) :
    entries.foldlM (fun registry entry => registry.register entry.1 entry.2) registry =
      .ok { registry with entries := registry.entries ++ entries } := by
  induction entries generalizing registry with
  | nil => simp [pure, Except.pure]
  | cons entry entries ih =>
    have hname := (isValidName_iff entry.1).mpr (hvalid entry List.mem_cons_self)
    have hnew : entry.1 ∉ registry.names := by
      rw [List.map_cons] at hnodup
      exact fun hmem => (List.nodup_append.mp hnodup).2.2 _ hmem _ List.mem_cons_self rfl
    have hregister : registry.register entry.1 entry.2 =
        .ok { registry with entries := registry.entries ++ [entry] } := by
      simp [register, hopen, hname, put_of_notMem hnew]
    have hrest : entries.foldlM (fun registry entry => registry.register entry.1 entry.2)
        { registry with entries := registry.entries ++ [entry] } =
          .ok { registry with entries := registry.entries ++ [entry] ++ entries } :=
      ih hopen (fun other hother => hvalid other (List.mem_cons_of_mem _ hother))
        (by simpa [names] using hnodup)
    rw [List.append_assoc, List.singleton_append] at hrest
    rw [List.foldlM_cons, hregister]
    exact hrest

theorem filled_builtins (draw : StateM σ Float) :
    filled (Builtin.all draw) = .ok { entries := Builtin.all draw } := by
  have hnames : (Builtin.all draw).map Prod.fst = (Builtin.all Dice.draw).map Prod.fst := rfl
  apply foldlM_register rfl
  · intro entry hentry
    have hvalid : ∀ name ∈ (Builtin.all Dice.draw).map Prod.fst, isValidName name = true := by
      decide +kernel
    exact (isValidName_iff _).mp (hvalid _ (hnames ▸ List.mem_map_of_mem hentry))
  · change ((Builtin.all draw).map Prod.fst).Nodup
    rw [hnames]
    decide +kernel

-- Whatever is asked of a registry, its names keep the order in which they came and have the last
-- function that was registered for them. A registration is refused after a freeze, and else for an
-- invalid name only. What is refused leaves no trace, and a frozen registry stays as it is, so that
-- a grammar has the names of its registry for good.
theorem registry_reflects_its_history (hstart : filled given = .ok start)
    (operations : List (Operation σ)) :
    (start.afterAll operations).Reflects (given ++ start.accepted operations) ∧
      (∀ name ∈ (start.afterAll operations).names, ValidName name) ∧
      (.freeze ∈ operations → ∀ name closure,
        (start.afterAll operations).register name closure = .error (.registryFrozen name)) ∧
      (.freeze ∉ operations → ∀ name closure,
        ((start.afterAll operations).register name closure = .error (.invalidName name) ↔
            ¬ValidName name) ∧
          ((∃ registered, (start.afterAll operations).register name closure = .ok registered) ↔
            ValidName name)) ∧
      (∀ operation fault, (start.afterAll operations).perform operation = .error fault →
        (start.afterAll operations).after operation = start.afterAll operations ∧
          (start.afterAll operations).entered operation = []) ∧
      (.freeze ∈ operations → ∀ later,
        (start.afterAll operations).afterAll later = start.afterAll operations) ∧
      ∀ later, ((start.afterAll operations).grammar.2.afterAll later).names =
        (start.afterAll operations).grammar.1.names := by
  have hfrozen := isFrozen_afterAll (isFrozen_filled hstart) operations
  refine ⟨(reflects_filled hstart).afterAll operations, fun name hname => ?_, fun hfreeze => ?_,
    fun hopen => ?_, fun operation fault hrefused => ?_, fun hfreeze => ?_, fun later => ?_⟩
  · have hregistered := (Registered.empty.registerAll given hstart).afterAll operations
    exact (isValidName_iff name).mp (hregistered.isValidName name hname)
  · exact register_of_frozen (hfrozen.mpr hfreeze)
  · exact register_of_open (Bool.eq_false_iff.mpr fun h => hopen (hfrozen.mp h))
  · refine ⟨by rw [after, hrefused], ?_⟩
    cases operation with
    | register name closure =>
      rw [perform] at hrefused
      rw [entered, hrefused]
    | freeze => rfl
  · exact afterAll_of_frozen (hfrozen.mpr hfreeze)
  · have hsame : (start.afterAll operations).grammar.2.afterAll later =
        (start.afterAll operations).grammar.2 := afterAll_of_frozen rfl later
    exact (congrArg names hsame).trans rfl

-- A new name comes last, a known one gets another function, and two registrations are refused.
theorem registry_reflects_its_history_of_builtins :
    let registry := standard.afterAll [.register "twice" (Closure.scale 2),
      .register "no name" Closure.sum, .register "sin" Closure.first, .freeze,
      .register "late" Closure.last]
    registry.names = standard.names ++ ["twice"] ∧ registry.get? "sin" = some Closure.first ∧
      registry.register "max" Closure.sum = .error (.registryFrozen "max") := by
  obtain ⟨hreflects, -, hfrozen, -⟩ :=
    registry_reflects_its_history (filled_builtins Dice.draw) [.register "twice" (Closure.scale 2),
      .register "no name" Closure.sum, .register "sin" Closure.first, .freeze,
      .register "late" Closure.last]
  refine ⟨?_, ?_, hfrozen (by simp) _ _⟩
  · exact hreflects.names_eq.trans rfl
  · exact (hreflects.get?_eq "sin").trans rfl

end Registry

end Abacus

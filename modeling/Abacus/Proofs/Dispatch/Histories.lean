import Abacus.Proofs.Dispatch.Registration

namespace Abacus

namespace DispatchTable

variable {κ μ : Type} [BEq κ] {table table' : DispatchTable κ μ} {front back new : List κ} {key : κ}
  {found : μ}

-- New keys that a list begins with end before the first key that is taken.
theorem AllNew.ends_before_taken (h : table.AllNew new) (hnew : new <+: front ++ back)
    (hstop : ∀ taken rest, back = taken :: rest → table.Taken front taken) : new <+: front := by
  obtain ⟨rest, hrest⟩ := hnew
  rcases List.append_eq_append_iff.mp hrest with ⟨between, rfl, -⟩ | ⟨beyond, rfl, hback⟩
  · exact List.prefix_append new between
  · cases beyond with
    | nil => simp
    | cons taken beyond =>
      rw [List.append_cons] at h
      have htaken : table.Taken front taken := hstop taken _ hback
      exact absurd htaken (allNew_concat.mp h.of_append).2

theorem get?_of_begins (h : table.entries <+: table'.entries)
    (hfound : table.get? key = some found) : table'.get? key = some found := by
  obtain ⟨more, hmore⟩ := h
  simp only [get?, Option.map_eq_some_iff] at hfound ⊢
  obtain ⟨entry, hentry, rfl⟩ := hfound
  exact ⟨entry, by rw [← hmore, List.find?_append, hentry, Option.some_or], rfl⟩

end DispatchTable

-- A registration that is tried: what is offered, and for which keys.
structure Registration (α β κ : Type) where
  offer : Offer α β
  keys : List κ

namespace Dispatcher

variable {α β κ : Type} {dispatcher start : Dispatcher α β κ}
  {registration : Registration α β κ} {registrations : List (Registration α β κ)} {key : κ}
  {method kept : Method α β} {front back : List κ}

-- A new choice has nothing but its default.
theorem of_make {keyOf : α → Except Fault κ} {capturesScope : Bool} {default : Offer α β}
    (h : make keyOf capturesScope default = .ok start) :
    ∃ method, default.check = .ok method ∧ start = ⟨keyOf, { fallback := method }⟩ := by
  cases capturesScope with
  | true => cases h
  | false =>
    cases hdefault : default.check with
    | error fault => simp [make, hdefault, bind, Except.bind] at h
    | ok method =>
      simp only [make, hdefault, bind, Except.bind] at h
      cases h
      exact ⟨method, rfl, rfl⟩

variable [BEq κ]

def after (dispatcher : Dispatcher α β κ) (registration : Registration α β κ) :
    Dispatcher α β κ :=
  (dispatcher.register registration.offer registration.keys).2

def afterAll (dispatcher : Dispatcher α β κ) (registrations : List (Registration α β κ)) :
    Dispatcher α β κ :=
  registrations.foldl after dispatcher

-- The method as it may stand in the table: as it was offered, or under the name of the default.
def StandsFor (dispatcher : Dispatcher α β κ) (kept method : Method α β) : Prop :=
  kept = method ∨ kept = dispatcher.named method

-- What a registration with a valid method does: it enters the keys in front of the first one that is
-- taken.
structure Step (dispatcher : Dispatcher α β κ) (registration : Registration α β κ)
    (method kept : Method α β) (front back : List κ) : Prop where
  valid : registration.offer.check = .ok method
  standsFor : dispatcher.StandsFor kept method
  keys : registration.keys = front ++ back
  allNew : dispatcher.table.AllNew front
  stop : ∀ taken rest, back = taken :: rest → dispatcher.table.Taken front taken
  after : dispatcher.after registration = dispatcher.extend kept front

theorem after_of_invalid {fault : DispatchFault} (h : registration.offer.check = .error fault) :
    dispatcher.after registration = dispatcher := by
  rw [after, register_of_invalid h]

theorem exists_step (dispatcher : Dispatcher α β κ)
    (hvalid : registration.offer.check = .ok method) :
    ∃ kept front back, dispatcher.Step registration method kept front back := by
  obtain ⟨offer, keys⟩ := registration
  by_cases hkeys : dispatcher.table.AllNew keys
  · have hafter : dispatcher.after ⟨offer, keys⟩ = _ :=
      congrArg Prod.snd (register_of_allNew hvalid hkeys)
    exact ⟨_, keys, [], hvalid, .inr rfl, (List.append_nil keys).symm, hkeys, nofun, hafter⟩
  · obtain ⟨front, taken, back, rfl, hfront, htaken⟩ := DispatchTable.exists_first_taken hkeys
    have hafter : dispatcher.after ⟨offer, front ++ taken :: back⟩ = _ :=
      congrArg Prod.snd (register_of_taken hvalid hfront htaken)
    refine ⟨method, front, taken :: back, hvalid, .inl rfl, rfl, hfront, ?_, hafter⟩
    rintro _ _ ⟨⟩
    exact htaken

theorem after_cases (dispatcher : Dispatcher α β κ) (registration : Registration α β κ) :
    dispatcher.after registration = dispatcher ∨
      ∃ method kept front back, dispatcher.Step registration method kept front back := by
  cases hoffer : registration.offer.check with
  | error fault => exact .inl (after_of_invalid hoffer)
  | ok method => exact .inr ⟨method, dispatcher.exists_step hoffer⟩

-- The method is valid, and the key is listed with none in front of it that is taken.
structure Stores (dispatcher : Dispatcher α β κ) (registration : Registration α β κ) (key : κ)
    (method : Method α β) : Prop where
  valid : registration.offer.check = .ok method
  listed : ∃ front listed back, registration.keys = front ++ listed :: back ∧
    (listed == key) = true ∧ dispatcher.table.AllNew (front ++ [listed])

-- A step stores what it enters.
theorem Step.stores_iff (h : dispatcher.Step registration method kept front back) :
    dispatcher.Stores registration key method ↔ front.any (· == key) = true := by
  rw [List.any_eq_true]
  constructor
  · rintro ⟨-, before, listed, rest, hkeys, hsame, hnew⟩
    have hbegins : before ++ [listed] <+: front ++ back := ⟨rest, by simp [← h.keys, hkeys]⟩
    have hkeeps := hnew.ends_before_taken hbegins h.stop
    exact ⟨listed, hkeeps.subset (by simp), hsame⟩
  · rintro ⟨listed, hlisted, hsame⟩
    obtain ⟨before, rest, rfl⟩ := List.append_of_mem hlisted
    have hnew := h.allNew
    rw [List.append_cons] at hnew
    exact ⟨h.valid, before, listed, rest ++ back, by simp [h.keys], hsame, hnew.of_append⟩

-- An entry stays, wherever the history goes on, and so does what is no entry.
theorem entries_prefix_after (dispatcher : Dispatcher α β κ) (registration : Registration α β κ) :
    dispatcher.table.entries <+: (dispatcher.after registration).table.entries := by
  rcases dispatcher.after_cases registration with hafter | ⟨_, kept, front, _, hstep⟩
  · simp only [hafter, List.prefix_refl]
  · rw [hstep.after]
    exact List.prefix_append _ _

theorem entries_prefix_afterAll (dispatcher : Dispatcher α β κ)
    (registrations : List (Registration α β κ)) :
    dispatcher.table.entries <+: (dispatcher.afterAll registrations).table.entries := by
  induction registrations generalizing dispatcher with
  | nil => exact List.prefix_refl _
  | cons registration registrations ih =>
    exact (dispatcher.entries_prefix_after registration).trans (ih (dispatcher.after registration))

theorem keeps_after (dispatcher : Dispatcher α β κ) (registration : Registration α β κ) :
    (dispatcher.after registration).keyOf = dispatcher.keyOf ∧
      (dispatcher.after registration).table.fallback = dispatcher.table.fallback := by
  rcases dispatcher.after_cases registration with hafter | ⟨_, kept, front, _, hstep⟩
  · rw [hafter]
    exact ⟨rfl, rfl⟩
  · rw [hstep.after]
    exact ⟨rfl, rfl⟩

theorem keeps_afterAll (dispatcher : Dispatcher α β κ)
    (registrations : List (Registration α β κ)) :
    (dispatcher.afterAll registrations).keyOf = dispatcher.keyOf ∧
      (dispatcher.afterAll registrations).table.fallback = dispatcher.table.fallback := by
  induction registrations generalizing dispatcher with
  | nil => exact ⟨rfl, rfl⟩
  | cons registration registrations ih =>
    obtain ⟨hkeyOf, hfallback⟩ := dispatcher.keeps_after registration
    obtain ⟨hkeyOf', hfallback'⟩ := ih (dispatcher.after registration)
    exact ⟨hkeyOf'.trans hkeyOf, hfallback'.trans hfallback⟩

theorem StandsFor.of_fallback (h : (dispatcher.after registration).StandsFor kept method) :
    dispatcher.StandsFor kept method := by
  rcases h with hkept | hkept
  · exact .inl hkept
  · right
    rw [hkept, named, named, name, name, (dispatcher.keeps_after registration).2]

theorem get?_after_of_stores (hkey : dispatcher.table.get? key = none)
    (h : dispatcher.Stores registration key method) :
    ∃ kept, dispatcher.StandsFor kept method ∧
      (dispatcher.after registration).table.get? key = some kept := by
  obtain ⟨kept, front, back, hstep⟩ := dispatcher.exists_step h.valid
  refine ⟨kept, hstep.standsFor, ?_⟩
  rw [hstep.after]
  exact DispatchTable.get?_extend_of_any hkey (hstep.stores_iff.mp h)

theorem get?_after_of_not_stores (h : ∀ method, ¬dispatcher.Stores registration key method) :
    (dispatcher.after registration).table.get? key = dispatcher.table.get? key := by
  rcases dispatcher.after_cases registration with hafter | ⟨method, kept, front, _, hstep⟩
  · rw [hafter]
  · have hnone := (not_congr hstep.stores_iff).mp (h method)
    rw [hstep.after]
    exact DispatchTable.get?_extend_of_not_any (Bool.not_eq_true _ ▸ hnone)

-- The method of the first registration that stores the key, if there is one.
inductive ServedBy (key : κ) :
    Dispatcher α β κ → List (Registration α β κ) → Option (Method α β) → Prop
  | nobody {dispatcher : Dispatcher α β κ} : ServedBy key dispatcher [] none
  | first {dispatcher : Dispatcher α β κ} {registration : Registration α β κ}
      {registrations : List (Registration α β κ)} {method : Method α β} :
      dispatcher.Stores registration key method →
      ServedBy key dispatcher (registration :: registrations) (some method)
  | later {dispatcher : Dispatcher α β κ} {registration : Registration α β κ}
      {registrations : List (Registration α β κ)} {served : Option (Method α β)} :
      (∀ method, ¬dispatcher.Stores registration key method) →
      ServedBy key (dispatcher.after registration) registrations served →
      ServedBy key dispatcher (registration :: registrations) served

theorem exists_servedBy (key : κ) (dispatcher : Dispatcher α β κ)
    (registrations : List (Registration α β κ)) :
    ∃ served, ServedBy key dispatcher registrations served := by
  induction registrations generalizing dispatcher with
  | nil => exact ⟨none, .nobody⟩
  | cons registration registrations ih =>
    by_cases hstores : ∃ method, dispatcher.Stores registration key method
    · obtain ⟨method, hstores⟩ := hstores
      exact ⟨some method, .first hstores⟩
    · obtain ⟨served, hserved⟩ := ih (dispatcher.after registration)
      exact ⟨served, .later (not_exists.mp hstores) hserved⟩

-- What the table has for a key in the end is the method that serves it.
theorem ServedBy.get?_eq_some (h : ServedBy key dispatcher registrations (some method))
    (hkey : dispatcher.table.get? key = none) :
    ∃ kept, dispatcher.StandsFor kept method ∧
      (dispatcher.afterAll registrations).table.get? key = some kept := by
  generalize hserved : some method = served at h
  induction h with
  | nobody => cases hserved
  | @first dispatcher registration registrations _ hstores =>
    cases hserved
    obtain ⟨kept, hkept, hget⟩ := get?_after_of_stores hkey hstores
    have hkeeps := (dispatcher.after registration).entries_prefix_afterAll registrations
    exact ⟨kept, hkept, DispatchTable.get?_of_begins hkeeps hget⟩
  | later hstores _ ih =>
    obtain ⟨kept, hkept, hget⟩ := ih ((get?_after_of_not_stores hstores).trans hkey) hserved
    exact ⟨kept, hkept.of_fallback, hget⟩

theorem ServedBy.get?_eq_none (h : ServedBy key dispatcher registrations none)
    (hkey : dispatcher.table.get? key = none) :
    (dispatcher.afterAll registrations).table.get? key = none := by
  generalize hserved : none = served at h
  induction h with
  | nobody => exact hkey
  | first _ => cases hserved
  | later hstores _ ih => exact ih ((get?_after_of_not_stores hstores).trans hkey) hserved

theorem get?_afterAll_eq_none_iff (hkey : dispatcher.table.get? key = none) :
    (dispatcher.afterAll registrations).table.get? key = none ↔
      ServedBy key dispatcher registrations none := by
  constructor
  · intro hnone
    obtain ⟨served, hserved⟩ := exists_servedBy key dispatcher registrations
    cases served with
    | none => exact hserved
    | some method =>
      obtain ⟨kept, -, hget⟩ := hserved.get?_eq_some hkey
      rw [hnone] at hget
      cases hget
  · exact fun hserved => hserved.get?_eq_none hkey

theorem call_eq {argument : α} (h : dispatcher.keyOf argument = .ok key) (more : List α) :
    dispatcher.call argument more = (dispatcher.table.lookup key).call argument more := by
  rw [call, h]
  rfl

-- Entries stay, whatever is registered later, and an invalid method leaves no trace. So a key is
-- served by the first registration that stored it, or by the default if there is none; the missing
-- keys are those that go to the default.
theorem first_registration_serves {keyOf : α → Except Fault κ} {capturesScope : Bool}
    {default : Offer α β} (hstart : make keyOf capturesScope default = .ok start)
    (registrations : List (Registration α β κ)) :
    (∀ earlier later, registrations = earlier ++ later →
      (start.afterAll earlier).table.entries <+: (start.afterAll registrations).table.entries ∧
        ∀ key method, (start.afterAll earlier).table.get? key = some method →
          (start.afterAll registrations).table.get? key = some method) ∧
      (∀ key, ∃ served, ServedBy key start registrations served) ∧
      (∀ key argument more, keyOf argument = .ok key →
        (∀ method, ServedBy key start registrations (some method) →
          ∃ kept, start.StandsFor kept method ∧
            (start.afterAll registrations).call argument more = kept.call argument more) ∧
          (ServedBy key start registrations none →
            ∃ method, default.check = .ok method ∧
              (start.afterAll registrations).call argument more = method.call argument more)) ∧
      (∀ goesToDefault : κ → Bool,
        (∀ key, goesToDefault key = true ↔ ServedBy key start registrations none) →
          ∀ keys, (start.afterAll registrations).table.missing keys = keys.filter goesToDefault) ∧
      ∀ offer keys fault, offer.check = .error fault →
        (start.afterAll registrations).register offer keys =
          (.error fault, start.afterAll registrations) := by
  obtain ⟨fallback, hdefault, hmade⟩ := of_make hstart
  have hempty : ∀ key, start.table.get? key = none := fun key => by rw [hmade]; rfl
  obtain ⟨hkeyOf, hfallback⟩ := start.keeps_afterAll registrations
  refine ⟨?_, fun key => exists_servedBy key start registrations, ?_, ?_, ?_⟩
  · rintro earlier later rfl
    have hkeeps : (start.afterAll earlier).table.entries <+:
        (start.afterAll (earlier ++ later)).table.entries := by
      rw [afterAll, afterAll, List.foldl_append]
      exact entries_prefix_afterAll _ later
    exact ⟨hkeeps, fun key method => DispatchTable.get?_of_begins hkeeps⟩
  · intro key argument more hargument
    have hkey : (start.afterAll registrations).keyOf argument = .ok key := by
      rw [hkeyOf, hmade]
      exact hargument
    have hcall := call_eq hkey more
    refine ⟨fun method hserved => ?_, fun hserved => ⟨fallback, hdefault, ?_⟩⟩
    · obtain ⟨kept, hkept, hget⟩ := hserved.get?_eq_some (hempty key)
      refine ⟨kept, hkept, ?_⟩
      rw [hcall, DispatchTable.lookup, hget, Option.getD_some]
    · rw [hcall, DispatchTable.lookup, hserved.get?_eq_none (hempty key), Option.getD_none,
        hfallback, hmade]
  · intro goesToDefault hgoes keys
    apply List.filter_congr
    intro key _
    rw [Bool.eq_iff_iff, hgoes, ← get?_afterAll_eq_none_iff (hempty key)]
    simp [DispatchTable.contains]
  · exact fun offer keys fault hoffer => register_of_invalid hoffer keys

theorem Stores.exists_mem (h : dispatcher.Stores registration key method) :
    ∃ listed ∈ registration.keys, (listed == key) = true := by
  obtain ⟨-, front, listed, back, hkeys, hsame, -⟩ := h
  exact ⟨listed, by simp [hkeys], hsame⟩

-- The third registration fails at its second key, and the fourth one at its first.
theorem first_registration_serves_behind_failures :
    let answering (label : String) : Method String String :=
      { name := label, parameters := ["self", "key"], run := fun key _ => .ok (label ++ key) }
    let start : Dispatcher String String String := ⟨.ok, { fallback := answering "any " }⟩
    let registrations : List (Registration String String String) :=
      [⟨.uncallable "3", ["c"]⟩, ⟨.method (answering "one "), ["a", "b"]⟩,
        ⟨.method (answering "two "), ["c", "a", "d"]⟩, ⟨.method (answering "three "), ["c", "d"]⟩]
    make .ok false (.method (answering "any ")) = .ok start ∧
      (start.afterAll registrations).call "c" [] = .ok "two c" ∧
      (start.afterAll registrations).call "d" [] = .ok "any d" := by
  intro answering start registrations
  have hstart : make .ok false (.method (answering "any ")) = .ok start := rfl
  obtain ⟨-, -, hcall, -⟩ := first_registration_serves hstart registrations
  refine ⟨hstart, ?_, ?_⟩
  · have hserved : ServedBy "c" start registrations (some (answering "two ")) := by
      refine .later (fun method h => by cases h.valid) (.later (fun method h => ?_) (.first ?_))
      · obtain ⟨listed, hlisted, hsame⟩ := h.exists_mem
        have hothers : ∀ listed ∈ ["a", "b"], (listed == "c") = false := by decide
        rw [hothers listed hlisted] at hsame
        cases hsame
      · refine ⟨rfl, [], "c", ["a", "d"], rfl, by decide, ?_, by simp⟩
        intro key hkey
        rw [List.mem_singleton.mp hkey]
        decide
    obtain ⟨kept, hkept, hresult⟩ := (hcall "c" "c" [] rfl).1 _ hserved
    rw [hresult]
    rcases hkept with rfl | rfl
    · decide
    · decide
  · have hnobody : ServedBy "d" start registrations none := by
      apply (get?_afterAll_eq_none_iff (by decide)).mp
      decide
    obtain ⟨method, hmethod, hresult⟩ := (hcall "d" "d" [] rfl).2 hnobody
    cases hmethod
    rw [hresult]
    decide

end Dispatcher

end Abacus

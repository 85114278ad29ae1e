import Abacus.Dispatch.Dispatcher
import Mathlib.Data.List.Induction

namespace Abacus

namespace DispatchTable

variable {κ μ : Type} {table : DispatchTable κ μ} {method : μ} {keys front back : List κ} {key : κ}

-- The table with more keys behind its own, all of them for one method.
def extend (table : DispatchTable κ μ) (method : μ) (keys : List κ) : DispatchTable κ μ :=
  { table with entries := table.entries ++ keys.map fun key => (key, method) }

@[simp]
theorem extend_nil (table : DispatchTable κ μ) (method : μ) : table.extend method [] = table := by
  simp [extend]

theorem extend_extend (table : DispatchTable κ μ) (method : μ) (front back : List κ) :
    (table.extend method front).extend method back = table.extend method (front ++ back) := by
  simp [extend]

variable [BEq κ]

-- The key has an entry, or it comes again.
def Taken (table : DispatchTable κ μ) (front : List κ) (key : κ) : Prop :=
  table.contains key = true ∨ ∃ earlier ∈ front, (earlier == key) = true

-- None of the keys has an entry, and none comes again.
structure AllNew (table : DispatchTable κ μ) (keys : List κ) : Prop where
  absent : ∀ key ∈ keys, table.contains key = false
  distinct : keys.Pairwise fun earlier later => (earlier == later) = false

theorem find?_keys (method : μ) (keys : List κ) (key : κ) :
    ((keys.map fun key => (key, method)).find? (·.1 == key)).map Prod.snd =
      if keys.any (· == key) then some method else none := by
  induction keys with
  | nil => rfl
  | cons other keys ih =>
    by_cases hsame : (other == key) = true
    · simp [hsame]
    · simpa [hsame] using ih

-- Entries that were there come first.
theorem get?_extend (table : DispatchTable κ μ) (method : μ) (keys : List κ) (key : κ) :
    (table.extend method keys).get? key =
      (table.get? key).or (if keys.any (· == key) then some method else none) := by
  rw [← find?_keys method keys key]
  simp only [get?, extend, List.find?_append]
  cases table.entries.find? (·.1 == key) <;> rfl

theorem get?_extend_of_any (hkey : table.get? key = none) (h : keys.any (· == key) = true) :
    (table.extend method keys).get? key = some method := by
  rw [get?_extend, hkey, if_pos h, Option.none_or]

theorem get?_extend_of_not_any (h : keys.any (· == key) = false) :
    (table.extend method keys).get? key = table.get? key := by
  rw [get?_extend, h, if_neg Bool.false_ne_true, Option.or_none]

theorem get?_eq_none (h : table.contains key = false) : table.get? key = none := by
  simpa [contains] using h

theorem contains_extend :
    (table.extend method keys).contains key = true ↔ table.Taken keys key := by
  rw [contains, get?_extend, Taken, contains, Option.isSome_or, Bool.or_eq_true, ← List.any_eq_true]
  by_cases h : keys.any (· == key) = true <;> simp [h]

theorem allNew_nil (table : DispatchTable κ μ) : table.AllNew [] := ⟨nofun, .nil⟩

-- One more key is new if it is not taken.
theorem allNew_concat :
    table.AllNew (front ++ [key]) ↔ table.AllNew front ∧ ¬table.Taken front key := by
  constructor
  · rintro ⟨habsent, hdistinct⟩
    rw [List.pairwise_append] at hdistinct
    refine ⟨⟨fun other hother => ?_, hdistinct.1⟩, ?_⟩
    · exact habsent other (List.mem_append_left _ hother)
    · rintro (hentry | ⟨earlier, hearlier, hsame⟩)
      · have hkey := habsent key (by simp)
        rw [hentry] at hkey
        cases hkey
      · have hkey := hdistinct.2.2 earlier hearlier key (by simp)
        rw [hsame] at hkey
        cases hkey
  · rintro ⟨⟨habsent, hdistinct⟩, hkey⟩
    rw [Taken, not_or, Bool.not_eq_true] at hkey
    refine ⟨fun other hother => ?_, List.pairwise_append.mpr ⟨hdistinct, by simp, ?_⟩⟩
    · rcases List.mem_append.mp hother with hother | hother
      · exact habsent other hother
      · rw [List.mem_singleton.mp hother]
        exact hkey.1
    · intro earlier hearlier later hlater
      rw [List.mem_singleton.mp hlater, ← Bool.not_eq_true]
      exact fun hsame => hkey.2 ⟨earlier, hearlier, hsame⟩

theorem AllNew.of_append (h : table.AllNew (front ++ back)) : table.AllNew front where
  absent key hkey := h.absent key (List.mem_append_left _ hkey)
  distinct := (List.pairwise_append.mp h.distinct).1

-- Keys that are not all new have a first one that is taken.
theorem exists_first_taken (h : ¬table.AllNew keys) :
    ∃ front taken back, keys = front ++ taken :: back ∧ table.AllNew front ∧
      table.Taken front taken := by
  induction keys using List.reverseRecOn with
  | nil => exact absurd (allNew_nil table) h
  | append_singleton keys last ih =>
    by_cases hkeys : table.AllNew keys
    · have htaken : table.Taken keys last := by
        by_contra hnew
        exact h (allNew_concat.mpr ⟨hkeys, hnew⟩)
      exact ⟨keys, last, [], rfl, hkeys, htaken⟩
    · obtain ⟨front, taken, back, rfl, hfront, htaken⟩ := ih hkeys
      exact ⟨front, taken, back ++ [last], by simp, hfront, htaken⟩

theorem insertAll_append (h : table.AllNew front) :
    insertAll method (front ++ back) table = insertAll method back (table.extend method front) := by
  induction front using List.reverseRecOn generalizing back with
  | nil => rw [List.nil_append, extend_nil]
  | append_singleton front key ih =>
    obtain ⟨hfront, hkey⟩ := allNew_concat.mp h
    have hnew : ¬(table.extend method front).contains key = true := fun hc =>
      hkey (contains_extend.mp hc)
    rw [List.append_assoc, List.singleton_append, ih hfront, insertAll, if_neg hnew,
      ← extend_extend]
    rfl

theorem insertAll_of_allNew (h : table.AllNew keys) :
    insertAll method keys table = (.ok (), table.extend method keys) := by
  have hall : insertAll method (keys ++ []) table = _ := insertAll_append h
  rwa [List.append_nil] at hall

theorem insertAll_of_taken (h : table.AllNew front) (hkey : table.Taken front key) :
    insertAll method (front ++ key :: back) table =
      (.error .keyTaken, table.extend method front) := by
  rw [insertAll_append h, insertAll, if_pos (contains_extend.mpr hkey)]

end DispatchTable

namespace Dispatcher

variable {α β κ : Type} {dispatcher : Dispatcher α β κ} {offer : Offer α β} {method : Method α β}
  {keys front back : List κ} {key : κ}

-- The same choice with more keys for a method.
def extend (dispatcher : Dispatcher α β κ) (method : Method α β) (keys : List κ) :
    Dispatcher α β κ :=
  { dispatcher with table := dispatcher.table.extend method keys }

theorem extend_eq_self : dispatcher.extend method keys = dispatcher ↔ keys = [] := by
  constructor
  · intro h
    have hlength : (dispatcher.extend method keys).table.entries.length =
        dispatcher.table.entries.length := by rw [h]
    simpa [extend, DispatchTable.extend] using hlength
  · rintro rfl
    rw [extend, DispatchTable.extend_nil]

variable [BEq κ]

theorem register_of_invalid {fault : DispatchFault} (h : offer.check = .error fault)
    (keys : List κ) : dispatcher.register offer keys = (.error fault, dispatcher) := by
  rw [register, h]

theorem register_of_allNew (hvalid : offer.check = .ok method) (h : dispatcher.table.AllNew keys) :
    dispatcher.register offer keys =
      (.ok (dispatcher.named method).name, dispatcher.extend (dispatcher.named method) keys) := by
  simp only [register, hvalid, DispatchTable.insertAll_of_allNew h]
  rfl

theorem register_of_taken (hvalid : offer.check = .ok method) (h : dispatcher.table.AllNew front)
    (hkey : dispatcher.table.Taken front key) :
    dispatcher.register offer (front ++ key :: back) =
      (.error .keyTaken, dispatcher.extend method front) := by
  simp only [register, hvalid, DispatchTable.insertAll_of_taken h hkey]
  rfl

-- Every key of the list is mapped to the method, and nothing else is changed.
structure Enters (dispatcher : Dispatcher α β κ) (method : Method α β) (keys : List κ)
    (after : Dispatcher α β κ) : Prop where
  mapped : ∀ key ∈ keys, after.table.get? key = some method
  others : ∀ key, (∀ entered ∈ keys, (entered == key) = false) →
    after.table.get? key = dispatcher.table.get? key
  fallback : after.table.fallback = dispatcher.table.fallback

theorem enters_extend [ReflBEq κ] (h : dispatcher.table.AllNew keys) :
    dispatcher.Enters method keys (dispatcher.extend method keys) where
  mapped key hkey := by
    apply DispatchTable.get?_extend_of_any (DispatchTable.get?_eq_none (h.absent key hkey))
    exact List.any_eq_true.mpr ⟨key, hkey, BEq.rfl⟩
  others key hkey := by
    apply DispatchTable.get?_extend_of_not_any
    simpa using hkey
  fallback := rfl

-- New keys are all entered. Otherwise the registration fails at the first key that is taken, and the
-- keys in front of that one are entered: none of them, if it is the first of all.
theorem registration_ends_at_a_taken_key [ReflBEq κ] (dispatcher : Dispatcher α β κ)
    (hvalid : offer.check = .ok method) (keys : List κ) :
    (dispatcher.table.AllNew keys →
      (dispatcher.register offer keys).1 = .ok (dispatcher.named method).name ∧
        dispatcher.Enters (dispatcher.named method) keys (dispatcher.register offer keys).2) ∧
      (¬dispatcher.table.AllNew keys →
        (dispatcher.register offer keys).1 = .error .keyTaken ∧
          ∃ front taken back, keys = front ++ taken :: back ∧ dispatcher.table.AllNew front ∧
            dispatcher.table.Taken front taken ∧
            dispatcher.Enters method front (dispatcher.register offer keys).2 ∧
            ((dispatcher.register offer keys).2 = dispatcher ↔ front = [])) := by
  constructor
  · intro h
    rw [register_of_allNew hvalid h]
    exact ⟨rfl, enters_extend h⟩
  · intro h
    obtain ⟨front, taken, back, rfl, hfront, htaken⟩ := DispatchTable.exists_first_taken h
    rw [register_of_taken hvalid hfront htaken]
    exact ⟨rfl, front, taken, back, rfl, hfront, htaken, enters_extend hfront, extend_eq_self⟩

-- The last key is not reached, and the first one stays.
theorem registration_ends_at_a_taken_key_in_the_middle :
    let answering (label : String) : Method String String :=
      { name := label, parameters := ["self", "key"], run := fun key _ => .ok (label ++ key) }
    let dispatcher : Dispatcher String String String :=
      ⟨.ok, { entries := [("a", answering "one")], fallback := answering "default" }⟩
    let outcome := dispatcher.register (.method (answering "two")) ["c", "a", "d"]
    outcome.1 = .error .keyTaken ∧ outcome.2.table.get? "c" = some (answering "two") ∧
      outcome.2.table.get? "a" = some (answering "one") ∧ outcome.2.table.get? "d" = none := by
  intro answering dispatcher outcome
  have hvalid : (Offer.method (answering "two")).check = .ok (answering "two") := rfl
  obtain ⟨-, hfails⟩ := registration_ends_at_a_taken_key dispatcher hvalid ["c", "a", "d"]
  have htable : dispatcher.table.contains "a" = true := by decide
  have hold : ¬dispatcher.table.AllNew ["c", "a", "d"] := fun h => by
    simpa [htable] using h.absent "a" (by decide)
  obtain ⟨hresult, front, taken, back, hkeys, hfront, htaken, henters, -⟩ := hfails hold
  have hc : front = ["c"] := by
    cases front with
    | nil =>
      cases hkeys
      rcases htaken with hentry | ⟨earlier, hearlier, -⟩
      · exact absurd hentry (by decide)
      · cases hearlier
    | cons first front =>
      cases front with
      | nil =>
        cases hkeys
        rfl
      | cons second front =>
        simp only [List.cons_append, List.cons.injEq] at hkeys
        obtain ⟨-, rfl, -⟩ := hkeys
        simpa [htable] using hfront.absent "a" (by simp)
  subst hc
  exact ⟨hresult, henters.mapped "c" (by decide), henters.others "a" (by decide),
    henters.others "d" (by decide)⟩

-- A registration that fails may have an effect: a key that was new is not new afterwards.
theorem failed_registration_enters_a_key :
    let answering (label : String) : Method String String :=
      { name := label, parameters := ["self", "key"], run := fun key _ => .ok (label ++ key) }
    let dispatcher : Dispatcher String String String :=
      ⟨.ok, { entries := [("a", answering "one"), ("b", answering "one")],
              fallback := answering "default" }⟩
    let outcome := dispatcher.register (.method (answering "two")) ["c", "a", "d"]
    (Offer.method (answering "two")).check = .ok (answering "two") ∧
      dispatcher.table.contains "a" = true ∧ outcome.1 = .error .keyTaken ∧
      dispatcher.table.contains "c" = false ∧ outcome.2.table.contains "c" = true ∧
      outcome.2 ≠ dispatcher := by
  intro answering dispatcher outcome
  have hbefore : dispatcher.table.contains "c" = false := by decide
  have hafter : outcome.2.table.contains "c" = true := by decide
  refine ⟨rfl, by decide, rfl, hbefore, hafter, fun hsame => ?_⟩
  rw [hsame, hbefore] at hafter
  cases hafter

end Dispatcher

end Abacus

import Abacus.Dispatch.Table

namespace Abacus

-- A method that picks its implementation by a key of its argument.
structure Dispatcher (α β κ : Type) where
  keyOf : α → Except Fault κ
  table : DispatchTable κ (Method α β)

namespace Dispatcher

variable {α β κ : Type} [BEq κ]

def make (keyOf : α → Except Fault κ) (keyCapturesScope : Bool) (offer : Offer α β) :
    Except DispatchFault (Dispatcher α β κ) := do
  if keyCapturesScope then throw .keyCapturesScope
  return ⟨keyOf, { fallback := ← offer.check }⟩

-- The name of the default is the name of the whole.
def name (dispatcher : Dispatcher α β κ) : String := dispatcher.table.fallback.name

-- The implementation under the name that it has once it is registered.
def named (dispatcher : Dispatcher α β κ) (method : Method α β) : Method α β :=
  { method with name := if method.name = "_" then dispatcher.name else method.name }

-- Registers an implementation for some keys and answers with its name from then on. Where a key is
-- taken, the keys before it keep the implementation under the name that it was offered with.
def register (dispatcher : Dispatcher α β κ) (offer : Offer α β) (keys : List κ) :
    Except DispatchFault String × Dispatcher α β κ :=
  match offer.check with
  | .error fault => (.error fault, dispatcher)
  | .ok method =>
      let registered := dispatcher.named method
      match dispatcher.table.insertAll registered keys with
      | (.ok (), table) => (.ok registered.name, { dispatcher with table := table })
      | (.error fault, _) =>
          (.error fault, { dispatcher with table := (dispatcher.table.insertAll method keys).2 })

-- The keys that values stand for, up to the first value that is no key, and what is wrong with it.
def usableKeys {ι : Type} (asKey : ι → Except Fault κ) : List ι → List κ × Option Fault
  | [] => ([], none)
  | value :: values =>
      match asKey value with
      | .error fault => ([], some fault)
      | .ok key =>
          let (keys, fault?) := usableKeys asKey values
          (key :: keys, fault?)

-- Registers an implementation for values that may be no keys. One that is none ends the
-- registration as a taken key does: the keys before it keep the implementation under the name that
-- it was offered with.
def registerValues {ι : Type} (asKey : ι → Except Fault κ) (dispatcher : Dispatcher α β κ)
    (offer : Offer α β) (values : List ι) :
    Except DispatchFault String × Dispatcher α β κ :=
  match usableKeys asKey values with
  | (keys, none) => dispatcher.register offer keys
  | (keys, some cause) =>
      match offer.check with
      | .error fault => (.error fault, dispatcher)
      | .ok method =>
          let (entered, table) := dispatcher.table.insertAll method keys
          let fault := match entered with
            | .ok () => .fault cause
            | .error fault => fault
          (.error fault, { dispatcher with table := table })

def call (dispatcher : Dispatcher α β κ) (argument : α) (more : List α) : Except Fault β := do
  (dispatcher.table.lookup (← dispatcher.keyOf argument)).call argument more

end Dispatcher

end Abacus

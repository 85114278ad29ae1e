import Abacus.Fault

namespace Abacus.Faulting

variable {σ α β : Type}

theorem run_bind_of_ok {x : ExceptT Fault (StateM σ) α} {f : α → ExceptT Fault (StateM σ) β}
    {a : α} {state state' : σ} (h : x.run state = (.ok a, state')) :
    (x >>= f).run state = (f a).run state' := by
  have hbind : (x >>= f).run state = ExceptT.bindCont f (x.run state).1 (x.run state).2 := rfl
  rw [hbind, h]
  rfl

theorem run_map (f : α → β) (x : ExceptT Fault (StateM σ) α) (state : σ) :
    (f <$> x).run state = ((x.run state).1.map f, (x.run state).2) := by
  rw [ExceptT.run_map]
  rfl

end Abacus.Faulting

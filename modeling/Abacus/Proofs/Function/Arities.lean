import Abacus.Proofs.Function.Guards

namespace Abacus

variable {σ : Type}

-- From the least number to the most, if there is one, with the words for them.
structure Arity where
  expected : String
  least : Nat
  most : Option Nat
deriving DecidableEq, Repr

def Arity.accepts (arity : Arity) (count : Nat) : Bool :=
  arity.least ≤ count && arity.most.all (count ≤ ·)

def Arity.one : Arity := ⟨"1", 1, some 1⟩

def Arity.two : Arity := ⟨"2", 2, some 2⟩

def Arity.oneOrTwo : Arity := ⟨"1 or 2", 1, some 2⟩

def Arity.atLeastOne : Arity := ⟨"at least 1", 1, none⟩

def Arity.upToTwo : Arity := ⟨"0 to 2", 0, some 2⟩

-- What each built-in function takes.
def Builtin.arityOf : String → Arity
  | "mod" | "atan2" | "hypot" => .two
  | "log" | "round" => .oneOrTwo
  | "min" | "max" => .atLeastOne
  | "rand" => .upToTwo
  | _ => .one

-- A refusal leaves the state alone. Every other call gives a double.
structure Closure.HasArity (closure : Closure σ) (name : String) (arity : Arity) : Prop where
  refuses : ∀ arguments state, arity.accepts arguments.length = false →
    (closure arguments).run state = (.error (.arity name arity.expected arguments.length), state)
  returns : ∀ arguments state, arity.accepts arguments.length = true →
    ∃ x after, (closure arguments).run state = (.ok (.float x), after)

namespace Closure

theorem hasArity_unary (name : String) (f : Float → Float) :
    (unary name f : Closure σ).HasArity name .one where
  refuses
    | [], _, _ | _ :: _ :: _, _, _ => rfl
  returns
    | [_], _, _ => ⟨_, _, rfl⟩
    | [], _, h | _ :: _ :: _, _, h => by simp [Arity.accepts, Arity.one] at h

theorem hasArity_binary (name : String) (f : Float → Float → Float) :
    (binary name f : Closure σ).HasArity name .two where
  refuses
    | [], _, _ | [_], _, _ | _ :: _ :: _ :: _, _, _ => rfl
  returns
    | [_, _], _, _ => ⟨_, _, rfl⟩
    | [], _, h | [_], _, h | _ :: _ :: _ :: _, _, h => by simp [Arity.accepts, Arity.two] at h

theorem hasArity_atLeastOne {closure : Closure σ} {name : String}
    (hnone : closure [] = refuse name "at least 1" [])
    (hsome : ∀ x rest, ∃ result, closure (x :: rest) = return .float result) :
    closure.HasArity name .atLeastOne where
  refuses
    | [], _, _ => by rw [hnone]; rfl
    | _ :: _, _, h => by simp [Arity.accepts, Arity.atLeastOne] at h
  returns
    | x :: rest, state, _ => by
      obtain ⟨result, hresult⟩ := hsome x rest
      exact ⟨result, state, by rw [hresult]; rfl⟩

end Closure

namespace MathLibrary

variable (library : MathLibrary)

theorem hasArity_guardedLog :
    (library.guardedLog : Closure σ).HasArity "log" .oneOrTwo where
  refuses
    | [], _, _ | _ :: _ :: _ :: _, _, _ => rfl
  returns
    | [_], _, _ | [_, _], _, _ => ⟨_, _, rfl⟩
    | [], _, h | _ :: _ :: _ :: _, _, h => by simp [Arity.accepts, Arity.oneOrTwo] at h

theorem escaping_roundedBy (x scale : Float) (state : σ) :
    ∃ rounded after, (escaping (library.roundedBy x scale)).run state =
      (.ok (.float rounded), after) := by
  obtain ⟨rounded, hrounded⟩ := library.roundedBy_returns x scale
  exact ⟨rounded, state, by rw [hrounded]; rfl⟩

theorem hasArity_guardedRound :
    (library.guardedRound : Closure σ).HasArity "round" .oneOrTwo where
  refuses
    | [], _, _ | _ :: _ :: _ :: _, _, _ => rfl
  returns
    | [x], state, _ => library.escaping_roundedBy x 1 state
    | [x, places], state, _ =>
        library.escaping_roundedBy x (recover (library.powerOfTen places)) state
    | [], _, h | _ :: _ :: _ :: _, _, h => by simp [Arity.accepts, Arity.oneOrTwo] at h

end MathLibrary

namespace Builtin

theorem hasArity_rand (draw : StateM σ Float) :
    (rand draw).HasArity "rand" .upToTwo where
  refuses
    | _ :: _ :: _ :: _, _, _ => rfl
  returns
    | [], _, _ | [_], _, _ | [_, _], _, _ => ⟨_, _, rfl⟩
    | _ :: _ :: _ :: _, _, h => by simp [Arity.accepts, Arity.upToTwo] at h

end Builtin

namespace MathLibrary

open Builtin

variable (library : MathLibrary)

theorem hasArity_guardedUnary {name : String} (f : Float → Except MathFault Float)
    (h : arityOf name = .one) : (guardedUnary name f : Closure σ).HasArity name (arityOf name) :=
  h ▸ Closure.hasArity_unary name _

theorem hasArity_guardedBinary {name : String} (f : Float → Float → Except MathFault Float)
    (h : arityOf name = .two) : (guardedBinary name f : Closure σ).HasArity name (arityOf name) :=
  h ▸ Closure.hasArity_binary name _

theorem hasArity_unaries :
    ∀ entry ∈ library.unaries.map (fun (name, f) => (name, (guardedUnary name f : Closure σ))),
      entry.2.HasArity entry.1 (arityOf entry.1) := by
  intro entry hentry
  obtain ⟨⟨name, f⟩, hmem, rfl⟩ := List.mem_map.mp hentry
  have hone : ∀ pair ∈ library.unaries, arityOf pair.1 = .one := by
    simp [unaries, arityOf]
  exact hasArity_guardedUnary f (hone _ hmem)

theorem hasArity_builtins (draw : StateM σ Float) :
    ∀ entry ∈ library.builtins draw, entry.2.HasArity entry.1 (arityOf entry.1) := by
  simp only [builtins, List.forall_mem_append, List.forall_mem_cons]
  refine ⟨⟨⟨?sqrt, ?abs, ?mod, ?round, ?floor, ?ceil, ?_⟩, library.hasArity_unaries⟩,
    ?atan2, ?hypot, ?log, ?ln, ?min, ?max, ?rand, ?_⟩
  case sqrt | abs | floor | ceil | ln => exact hasArity_guardedUnary _ rfl
  case mod | atan2 | hypot => exact hasArity_guardedBinary _ rfl
  case round => exact library.hasArity_guardedRound
  case log => exact library.hasArity_guardedLog
  case min | max => exact Closure.hasArity_atLeastOne rfl fun x rest => ⟨_, rfl⟩
  case rand => exact hasArity_rand draw
  all_goals exact List.forall_mem_nil _

end MathLibrary

namespace Builtin

-- Whatever the library refuses, a built-in function refuses only a wrong number of arguments, and
-- then draws no random number. The functions of every calculator are those over one such library.
theorem only_arity_is_refused (draw : StateM σ Float) :
    (∀ library : MathLibrary, ∀ entry ∈ library.builtins draw,
      entry.2.HasArity entry.1 (arityOf entry.1)) ∧
    MathLibrary.standard.builtins draw = all draw ∧
    ∀ entry ∈ all draw, entry.2.HasArity entry.1 (arityOf entry.1) := by
  have hall := fun library : MathLibrary => library.hasArity_builtins draw
  have hstandard := MathLibrary.builtins_standard draw
  exact ⟨hall, hstandard, hstandard ▸ hall .standard⟩

-- Three bounds are too many, and a rounding to infinitely many places has a result.
theorem only_arity_is_refused_by_rand_and_round :
    let draw : StateM Dice Float := Dice.draw
    let dice : Dice := .cycle [0.5]
    let round : Closure Dice := MathLibrary.standard.guardedRound
    (("rand", rand draw) ∈ all draw ∧ (arityOf "rand").accepts 3 = false ∧
      (rand draw [1, 2, 3]).run dice = (.error (.arity "rand" "0 to 2" 3), dice)) ∧
    ("round", round) ∈ MathLibrary.standard.builtins draw ∧ (arityOf "round").accepts 2 = true ∧
      ∃ x after, (round [0.5, Binary64.infinity]).run dice = (.ok (.float x), after) := by
  intro draw dice round
  have hrand : ("rand", rand draw) ∈ all draw := List.mem_append_right _ (by simp)
  have hround : ("round", round) ∈ MathLibrary.standard.builtins draw :=
    List.mem_append_left _ (List.mem_append_left _ (by simp [round]))
  obtain ⟨hlibrary, -, hall⟩ := only_arity_is_refused draw
  exact ⟨⟨hrand, by decide, (hall _ hrand).refuses [1, 2, 3] dice (by decide)⟩, hround, by decide,
    (hlibrary _ _ hround).returns [0.5, Binary64.infinity] dice (by decide)⟩

end Builtin

end Abacus

import Abacus.Calculator
import Abacus.Proofs.Faulting
import Abacus.Proofs.Function.Histories
import Abacus.Proofs.Grammar.Safety

namespace Abacus

-- What may be asked of a calculator.
inductive Request
  | register (name : String) (closure : Closure Dice)
  | parse (text name : String)
  | calculate (text : String)
  | evaluateTree (tree : Value)
  | evaluateMatch (result : Match)

-- The requests that need the grammar.
def Request.parses : Request → Bool
  | parse .. | calculate _ => true
  | register .. | evaluateTree _ | evaluateMatch _ => false

-- What a request asks of the registry.
def Request.operations : Request → List (Operation Dice)
  | register name closure => [.register name closure]
  | parse .. | calculate _ => [.freeze]
  | evaluateTree _ | evaluateMatch _ => []

-- What a request adds to a registry that is open.
def Request.registers : Request → List (String × Closure Dice)
  | register name closure => if Registry.ValidName name then [(name, closure)] else []
  | parse .. | calculate _ | evaluateTree _ | evaluateMatch _ => []

-- The registrations of valid names before the first parse, in order.
def registrations (requests : List Request) : List (String × Closure Dice) :=
  (requests.takeWhile fun request => !request.parses).flatMap Request.registers

-- They are the registrations that an open registry accepts, if a parse freezes it.
theorem accepted_operations {registry : Registry Dice} (h : registry.isFrozen = false)
    (requests : List Request) :
    registry.accepted (requests.flatMap Request.operations) = registrations requests := by
  induction requests generalizing registry with
  | nil => rfl
  | cons request requests ih =>
    cases request with
    | register name closure =>
      have hopen : (registry.after (.register name closure)).isFrozen = false := by
        rw [← Bool.not_eq_true, Registry.isFrozen_after h]
        exact nofun
      rw [List.flatMap_cons, Request.operations, List.singleton_append, Registry.accepted,
        Registry.entered_of_open h, ih hopen]
      rfl
    | parse text name => exact registry.accepted_freeze _
    | calculate text => exact registry.accepted_freeze _
    | evaluateTree tree => exact ih h
    | evaluateMatch result => exact ih h

theorem freeze_mem_operations (requests : List Request) :
    .freeze ∈ requests.flatMap Request.operations ↔ requests.any Request.parses = true := by
  rw [List.mem_flatMap, List.any_eq_true]
  refine exists_congr fun request => and_congr_right fun _ => ?_
  cases request <;> simp [Request.operations, Request.parses]

namespace Calculator

variable {calculator : Calculator}

-- The calculator that a request leaves, answered or not.
def after (calculator : Calculator) : Request → Calculator
  | .register name closure => ((register name closure).run calculator).2
  | .parse text name => ((parse text name).run calculator).2
  | .calculate text => ((calculate text).run calculator).2
  | .evaluateTree tree => ((evaluateTree tree).run calculator).2
  | .evaluateMatch result => ((evaluateMatch result).run calculator).2

def afterAll (calculator : Calculator) (requests : List Request) : Calculator :=
  requests.foldl after calculator

-- The grammar that the calculator parses with, now or from the next parse on.
def grammarToUse (calculator : Calculator) : Grammar :=
  calculator.grammar.getD ⟨calculator.registry.names⟩

-- The calculator with its grammar made.
def settled (calculator : Calculator) : Calculator :=
  match calculator.grammar with
  | some _ => calculator
  | none =>
      { calculator with
        registry := calculator.registry.freeze
        grammar := some ⟨calculator.registry.names⟩ }

theorem run_theGrammar (calculator : Calculator) :
    theGrammar.run calculator = (.ok calculator.grammarToUse, calculator.settled) := by
  obtain ⟨registry, grammar, dice⟩ := calculator
  cases grammar <;> rfl

-- Every text can be parsed. The grammar is made whether or not the text is an expression.
theorem exists_run_parse (calculator : Calculator) (text name : String) :
    ∃ result, calculator.grammarToUse.parse text name = .ok result ∧
      (parse text name).run calculator = (.ok result, calculator.settled) := by
  obtain ⟨result, hresult⟩ := calculator.grammarToUse.exists_parse text name
  refine ⟨result, hresult, ?_⟩
  rw [parse, Faulting.run_bind_of_ok (run_theGrammar calculator), hresult]
  rfl

theorem run_register (calculator : Calculator) (name : String) (closure : Closure Dice) :
    (register name closure).run calculator =
      match calculator.registry.register name closure with
      | .error fault => (.error fault, calculator)
      | .ok registry => (.ok (), { calculator with registry := registry }) := by
  have hget : (get : CalculatorM Calculator).run calculator = (.ok calculator, calculator) := rfl
  rw [register, Faulting.run_bind_of_ok hget]
  cases calculator.registry.register name closure <;> rfl

theorem run_evaluateTree_absent (calculator : Calculator) :
    (evaluateTree .absent).run calculator = (.error .absentTree, calculator) := rfl

-- An evaluation uses up random numbers and changes nothing else.
theorem exists_after_evaluateTree (calculator : Calculator) (tree : Value) :
    ∃ dice, ((evaluateTree tree).run calculator).2 = { calculator with dice := dice } := by
  unfold evaluateTree
  by_cases h : tree.isAbsent = true
  · rw [if_pos h]
    exact ⟨calculator.dice, rfl⟩
  · rw [if_neg h]
    exact ⟨_, rfl⟩

theorem run_evaluateMatch_of_failed {result : Match} (h : result.failed = true) :
    (evaluateMatch result).run calculator =
      (.error (.failedParse ("cannot evaluate a failed parse: " ++ result.complaint.text)),
        calculator) := by
  rw [evaluateMatch, if_pos h]
  rfl

theorem exists_after_evaluateMatch (calculator : Calculator) (result : Match) :
    ∃ dice, ((evaluateMatch result).run calculator).2 = { calculator with dice := dice } := by
  by_cases h : result.failed = true
  · rw [run_evaluateMatch_of_failed h]
    exact ⟨calculator.dice, rfl⟩
  · rw [evaluateMatch, if_neg h]
    exact exists_after_evaluateTree calculator result.value

-- A calculation is an evaluation of what was parsed.
theorem run_calculate_of_ok {text : String} {result : Match} (h : result.failed = false)
    (hparse : (parse text "").run calculator = (.ok result, calculator.settled)) :
    (calculate text).run calculator = (evaluateMatch result).run calculator.settled := by
  have hok : ¬result.failed = true := by simp [h]
  rw [calculate, Faulting.run_bind_of_ok hparse]
  dsimp only
  rw [if_neg hok]

theorem run_calculate_of_failed {text words : String} {result : Match} (h : result.failed = true)
    (hparse : (parse text "").run calculator = (.ok result, calculator.settled))
    (hwords : result.diagnostic "" = .ok words) :
    (calculate text).run calculator = (.error (.failedParse words), calculator.settled) := by
  rw [calculate, Faulting.run_bind_of_ok hparse]
  dsimp only
  rw [if_pos h, hwords]
  rfl

-- What fails to parse is reported with its diagnostic.
theorem run_calculate (calculator : Calculator) (text : String) :
    ∃ result, calculator.grammarToUse.parse text "" = .ok result ∧
      (parse text "").run calculator = (.ok result, calculator.settled) ∧
      (result.failed = false →
        (calculate text).run calculator = (evaluateMatch result).run calculator.settled) ∧
      (result.failed = true → ∃ words, result.diagnostic "" = .ok words ∧
        (calculate text).run calculator = (.error (.failedParse words), calculator.settled)) := by
  obtain ⟨result, hresult, hparse⟩ := exists_run_parse calculator text ""
  refine ⟨result, hresult, hparse, fun h => run_calculate_of_ok h hparse, fun h => ?_⟩
  obtain ⟨words, hwords⟩ := Grammar.exists_diagnostic_of_parse hresult h ""
  exact ⟨words, hwords, run_calculate_of_failed h hparse hwords⟩

theorem exists_after_calculate (calculator : Calculator) (text : String) :
    ∃ dice, ((calculate text).run calculator).2 = { calculator.settled with dice := dice } := by
  obtain ⟨result, -, -, hok, hfailed⟩ := run_calculate calculator text
  cases h : result.failed with
  | false =>
    rw [hok h]
    exact exists_after_evaluateMatch calculator.settled result
  | true =>
    obtain ⟨words, -, hcalculate⟩ := hfailed h
    rw [hcalculate]
    exact ⟨calculator.settled.dice, rfl⟩

-- A request that needs the grammar makes it.
theorem after_of_parses {request : Request} (h : request.parses = true) (calculator : Calculator) :
    ∃ dice, calculator.after request = { calculator.settled with dice := dice } := by
  cases request with
  | parse text name =>
    obtain ⟨result, -, hparse⟩ := exists_run_parse calculator text name
    rw [after, hparse]
    exact ⟨calculator.settled.dice, rfl⟩
  | calculate text => exact exists_after_calculate calculator text
  | register name closure => cases h
  | evaluateTree tree => cases h
  | evaluateMatch result => cases h

theorem after_register (calculator : Calculator) (name : String) (closure : Closure Dice) :
    calculator.after (.register name closure) =
      { calculator with registry := calculator.registry.after (.register name closure) } := by
  rw [after, run_register, Registry.after, Registry.perform]
  cases calculator.registry.register name closure <;> rfl

-- There is a grammar as soon as the registry is frozen, and it has the names of the registry.
def Coherent (calculator : Calculator) : Prop :=
  calculator.grammar =
    if calculator.registry.isFrozen then some ⟨calculator.registry.names⟩ else none

theorem coherent_fresh (dice : Dice) : (fresh dice).Coherent := rfl

namespace Coherent

theorem grammarToUse (h : calculator.Coherent) :
    calculator.grammarToUse = ⟨calculator.registry.names⟩ := by
  rw [Calculator.grammarToUse, h]
  cases calculator.registry.isFrozen <;> rfl

theorem settled (h : calculator.Coherent) :
    calculator.settled = { calculator with
      registry := calculator.registry.freeze
      grammar := some ⟨calculator.registry.names⟩ } := by
  obtain ⟨⟨entries, isFrozen⟩, grammar, dice⟩ := calculator
  cases isFrozen with
  | false =>
    obtain rfl : grammar = none := h
    rfl
  | true =>
    obtain rfl : grammar = some ⟨entries.map Prod.fst⟩ := h
    rfl

theorem after_of_parses (h : calculator.Coherent) {request : Request}
    (hrequest : request.parses = true) :
    (calculator.after request).Coherent ∧
      (calculator.after request).registry = calculator.registry.freeze := by
  obtain ⟨dice, hafter⟩ := Calculator.after_of_parses hrequest calculator
  rw [hafter, h.settled]
  exact ⟨rfl, rfl⟩

-- Every request does to the registry what it asks of it.
theorem after (h : calculator.Coherent) (request : Request) :
    (calculator.after request).Coherent ∧
      (calculator.after request).registry = calculator.registry.afterAll request.operations := by
  cases request with
  | register name closure =>
    rw [after_register]
    refine ⟨?_, rfl⟩
    cases hregister : calculator.registry.register name closure with
    | error fault => simpa [Coherent, Registry.after, Registry.perform, hregister] using h
    | ok registered =>
      obtain ⟨hopen, -, rfl⟩ := Registry.of_register hregister
      simpa [Coherent, Registry.after, Registry.perform, hregister, hopen] using h
  | parse text name => exact h.after_of_parses rfl
  | calculate text => exact h.after_of_parses rfl
  | evaluateTree tree =>
    obtain ⟨dice, hafter⟩ := exists_after_evaluateTree calculator tree
    rw [Calculator.after, hafter]
    exact ⟨h, rfl⟩
  | evaluateMatch result =>
    obtain ⟨dice, hafter⟩ := exists_after_evaluateMatch calculator result
    rw [Calculator.after, hafter]
    exact ⟨h, rfl⟩

theorem afterAll (h : calculator.Coherent) (requests : List Request) :
    (calculator.afterAll requests).Coherent ∧
      (calculator.afterAll requests).registry =
        calculator.registry.afterAll (requests.flatMap Request.operations) := by
  induction requests generalizing calculator with
  | nil => exact ⟨h, rfl⟩
  | cons request requests ih =>
    obtain ⟨hcoherent, hregistry⟩ := h.after request
    obtain ⟨hcoherent', hregistry'⟩ := ih hcoherent
    refine ⟨hcoherent', ?_⟩
    rw [List.flatMap_cons, Registry.afterAll_append, ← hregistry]
    exact hregistry'

end Coherent

theorem isFrozen_afterAll_fresh (dice : Dice) (requests : List Request) :
    ((fresh dice).afterAll requests).registry.isFrozen = requests.any Request.parses := by
  have hopen : (fresh dice).registry.isFrozen = false := rfl
  rw [Bool.eq_iff_iff, ← freeze_mem_operations, ((coherent_fresh dice).afterAll requests).2]
  exact Registry.isFrozen_afterAll hopen _

theorem reflects_afterAll_fresh (dice : Dice) (requests : List Request) :
    ((fresh dice).afterAll requests).registry.Reflects
      (Builtin.all Dice.draw ++ registrations requests) := by
  have hopen : (fresh dice).registry.isFrozen = false := rfl
  have hstart : (fresh dice).registry.Reflects (Builtin.all Dice.draw) :=
    Registry.reflects_filled (Registry.filled_builtins Dice.draw)
  have hhistory := hstart.afterAll (requests.flatMap Request.operations)
  rwa [accepted_operations hopen, ← ((coherent_fresh dice).afterAll requests).2] at hhistory

-- Whatever was asked before, answered or not, the registry has the functions that were there from
-- the beginning and those that were registered by valid names before the first text was parsed or
-- calculated. From then on, and not before, it is frozen: it stays as it is and refuses
-- registrations. Texts are parsed by the grammar of its names, and a calculation evaluates what it
-- parses. Failures of parsing are reported, and evaluating them, or nothing, changes nothing.
theorem registry_closes_at_first_parse (dice : Dice) (requests : List Request) :
    let entries := Builtin.all Dice.draw ++ registrations requests
    let calculator := (fresh dice).afterAll requests
    calculator.registry.Reflects entries ∧
    calculator.registry.isFrozen = requests.any Request.parses ∧
    (requests.any Request.parses = false → ∀ name closure,
      (Registry.ValidName name → ((register name closure).run calculator).1 = .ok ()) ∧
      (¬Registry.ValidName name → ∃ fault,
        (register name closure).run calculator = (.error fault, calculator) ∧
          fault.kind = "ValueError")) ∧
    (requests.any Request.parses = true →
      (∀ later, (calculator.afterAll later).registry = calculator.registry) ∧
      ∀ name closure, ∃ fault, (register name closure).run calculator = (.error fault, calculator) ∧
        fault.kind = "RegistryFrozen") ∧
    (∀ text name, ∃ result,
      Grammar.parse ⟨(entries.map Prod.fst).eraseDups⟩ text name = .ok result ∧
        ((parse text name).run calculator).1 = .ok result) ∧
    (∀ text, ∃ result afterwards, (parse text "").run calculator = (.ok result, afterwards) ∧
      (result.failed = false →
        (calculate text).run calculator = (evaluateMatch result).run afterwards) ∧
      (result.failed = true → ∃ fault words, result.diagnostic "" = .ok words ∧
        (calculate text).run calculator = (.error fault, afterwards) ∧
        fault.kind = "ValueError" ∧ fault.message = words)) ∧
    (∀ result : Match, result.failed = true → ∃ fault,
      (evaluateMatch result).run calculator = (.error fault, calculator) ∧
        fault.kind = "ValueError") ∧
    ∃ fault, (evaluateTree .absent).run calculator = (.error fault, calculator) ∧
      fault.kind = "ValueError" := by
  intro entries calculator
  have hcoherent : calculator.Coherent := ((coherent_fresh dice).afterAll requests).1
  have hreflects : calculator.registry.Reflects entries := reflects_afterAll_fresh dice requests
  have hfrozen : calculator.registry.isFrozen = requests.any Request.parses :=
    isFrozen_afterAll_fresh dice requests
  refine ⟨hreflects, hfrozen, fun hparses name closure => ?_, fun hparses => ⟨fun later => ?_,
    fun name closure => ?_⟩, fun text name => ?_, fun text => ?_, fun result h => ?_, ?_⟩
  · have hregister := Registry.register_of_open (hfrozen.trans hparses) name closure
    rw [run_register]
    refine ⟨fun hname => ?_, fun hname => ⟨.invalidName name, ?_, rfl⟩⟩
    · obtain ⟨registered, hok⟩ := hregister.2.mpr hname
      rw [hok]
    · rw [hregister.1.mpr hname]
  · rw [(hcoherent.afterAll later).2]
    exact Registry.afterAll_of_frozen (hfrozen.trans hparses) _
  · refine ⟨.registryFrozen name, ?_, rfl⟩
    rw [run_register, Registry.register_of_frozen (hfrozen.trans hparses)]
  · obtain ⟨result, hresult, hrun⟩ := exists_run_parse calculator text name
    rw [hcoherent.grammarToUse, hreflects.names_eq] at hresult
    exact ⟨result, hresult, by rw [hrun]⟩
  · obtain ⟨result, -, hparse, hok, hfailed⟩ := run_calculate calculator text
    refine ⟨result, _, hparse, hok, fun h => ?_⟩
    obtain ⟨words, hwords, hcalculate⟩ := hfailed h
    exact ⟨_, words, hwords, hcalculate, rfl, rfl⟩
  · exact ⟨_, run_evaluateMatch_of_failed h, rfl⟩
  · exact ⟨_, run_evaluateTree_absent calculator, rfl⟩

-- A name with a blank is refused, and a valid one can be called from then on. A text that is no
-- expression closes the registry all the same.
theorem registry_closes_at_first_parse_behind_a_failure :
    let requests : List Request :=
      [.register "no name" Closure.sum, .register "twice" (Closure.scale 2)]
    let start := (fresh (.cycle [])).afterAll requests
    let calculator := (fresh (.cycle [])).afterAll (requests ++ [.calculate "("])
    ((register "half" (Closure.scale 0.5)).run start).1 = .ok () ∧
    (∃ fault, (register "no name" Closure.sum).run start = (.error fault, start) ∧
      fault.kind = "ValueError") ∧
    calculator.registry.names = Registry.standard.names ++ ["twice"] ∧
    calculator.registry.get? "twice" = some (Closure.scale 2) ∧
    (∃ fault, (register "half" (Closure.scale 0.5)).run calculator = (.error fault, calculator) ∧
      fault.kind = "RegistryFrozen") ∧
    (∃ result afterwards, (parse "twice(21)" "").run calculator = (.ok result, afterwards) ∧
      result.failed = false ∧
      (calculate "twice(21)").run calculator = (evaluateMatch result).run afterwards) ∧
    ((calculate "twice(21)").run calculator).1.map Prod.fst = .ok 42 ∧
    ∃ fault afterwards, (calculate "(").run calculator = (.error fault, afterwards) ∧
      fault.kind = "ValueError" := by
  intro requests start calculator
  obtain ⟨-, -, hopen, -⟩ := registry_closes_at_first_parse (.cycle []) requests
  obtain ⟨hreflects, -, -, hclosed, -, hcalculate, -⟩ :=
    registry_closes_at_first_parse (.cycle []) (requests ++ [.calculate "("])
  have hparsed : ((parse "twice(21)" "").run calculator).1.map Match.failed = .ok false := by
    decide +kernel
  have hrefused : ((parse "(" "").run calculator).1.map Match.failed = .ok true := by
    decide +kernel
  refine ⟨(hopen rfl _ _).1 (by decide), (hopen rfl _ _).2 (by decide),
    hreflects.names_eq.trans rfl, (hreflects.get?_eq "twice").trans rfl, (hclosed rfl).2 _ _, ?_,
    by decide +kernel, ?_⟩
  · obtain ⟨result, afterwards, hparse, hok, -⟩ := hcalculate "twice(21)"
    rw [hparse] at hparsed
    have h : result.failed = false := Except.ok.inj hparsed
    exact ⟨result, afterwards, hparse, h, hok h⟩
  · obtain ⟨result, afterwards, hparse, -, hfailed⟩ := hcalculate "("
    rw [hparse] at hrefused
    obtain ⟨fault, words, -, hrun, hkind, -⟩ := hfailed (Except.ok.inj hrefused)
    exact ⟨fault, afterwards, hrun, hkind⟩

end Calculator

end Abacus

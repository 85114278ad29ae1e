import Abacus.Proofs.Grammar.Descent

namespace Abacus

namespace Grammar

-- The names under which results are remembered.
def rememberedNames : List String := ["expr", "arg_expr"]

-- What the log has for an entry of the body, as opposed to a call of the rule.
def entering (name : String) : String := "body of " ++ name

theorem entering_ne_name :
    ∀ name ∈ rememberedNames, ∀ name' ∈ rememberedNames, entering name ≠ name' := by decide

end Grammar

namespace MemoKey

open Grammar

-- The call that a key stands for, and the entry of the body for that call, as the log has them.
def call (key : MemoKey) : Attempt := ⟨key.rule, key.pos, key.stop⟩

def entry (key : MemoKey) : Attempt := ⟨entering key.rule, key.pos, key.stop⟩

-- The key of a remembered rule and of a view of the source.
structure Suits (source : Source) (key : MemoKey) : Prop where
  source : key.source = source
  rule : key.rule ∈ rememberedNames

variable {source : Source} {key key' : MemoKey}

theorem suits_of {name : String} (h : name ∈ rememberedNames) (view : View) :
    (of name view).Suits view.source := ⟨rfl, h⟩

theorem entry_ne_call (h : key.Suits source) (h' : key'.Suits source) : key.entry ≠ key'.call := by
  intro heq
  exact entering_ne_name key.rule h.rule key'.rule h'.rule (congrArg Attempt.label heq)

theorem Suits.eq_of_call (h : key.Suits source) (h' : key'.Suits source)
    (heq : key.call = key'.call) : key = key' := by
  obtain ⟨hsource, -⟩ := h
  obtain ⟨hsource', -⟩ := h'
  cases key
  cases key'
  simp_all [call]

theorem Suits.eq_of_entry (h : key.Suits source) (h' : key'.Suits source)
    (heq : key.entry = key'.entry) : key = key' := by
  obtain ⟨hsource, -⟩ := h
  obtain ⟨hsource', -⟩ := h'
  cases key
  cases key'
  simp_all [entry, entering]

end MemoKey

theorem MemoTable.mem_insert {table : MemoTable} {own key : MemoKey} {result : Match} :
    key ∈ table.insert own result ↔ own = key ∨ key ∈ table := by
  rw [Std.TreeMap.mem_insert, Std.LawfulEqCmp.compare_eq_iff_eq]

theorem MemoTable.mem_of_eq_some {table : MemoTable} {key : MemoKey} {result : Match}
    (h : table[key]? = some result) : key ∈ table := by
  by_contra hnot
  rw [(getElem?_eq_none_iff table key).mpr hnot] at h
  cases h

-- What the calls on a view, and on parts of it, put into the table and into the log.
structure Entered (strictly : Bool) (view : View) (made : List Attempt)
    (before after : MemoTable) : Prop where
  below : ∀ attempt ∈ made, attempt.Below strictly view ∧ attempt.pos ≤ attempt.stop
  kept : ∀ (key : MemoKey) (found : Match), before[key]? = some found → after[key]? = some found
  -- There is an entry for every call, and for nothing else.
  tabled : ∀ key, key ∈ after ↔ key ∈ before ∨ (key.Suits view.source ∧ key.call ∈ made)
  -- A body is entered for a call to which the table has no answer.
  fresh : ∀ key : MemoKey, key.Suits view.source → key.entry ∈ made →
    key ∉ before ∧ key.call ∈ made
  once : ∀ key : MemoKey, key.Suits view.source → made.count key.entry ≤ 1

namespace Entered

open Grammar

variable {strictly strictly' : Bool} {view inner : View} {made later : List Attempt}
  {before between after table : MemoTable} {name : String}

theorem nothing (strictly : Bool) (view : View) (table : MemoTable) :
    Entered strictly view [] table table where
  below := by simp
  kept _ _ hfound := hfound
  tabled := by simp
  fresh := by simp
  once := by simp

-- What was entered before is in the table, and is not entered again.
theorem trans (h : Entered strictly view made before between)
    (h' : Entered strictly view later between after) :
    Entered strictly view (later ++ made) before after where
  below attempt hmem := (List.mem_append.mp hmem).elim (h'.below attempt) (h.below attempt)
  kept key found hfound := h'.kept key found (h.kept key found hfound)
  tabled key := by
    rw [h'.tabled, h.tabled, List.mem_append]
    tauto
  fresh key hkey hmem := by
    rcases List.mem_append.mp hmem with hmem | hmem
    · obtain ⟨habsent, hcall⟩ := h'.fresh key hkey hmem
      have habsent' : key ∉ before := fun hpresent => habsent ((h.tabled key).mpr (.inl hpresent))
      exact ⟨habsent', List.mem_append_left made hcall⟩
    · obtain ⟨habsent, hcall⟩ := h.fresh key hkey hmem
      exact ⟨habsent, List.mem_append_right later hcall⟩
  once key hkey := by
    rw [List.count_append]
    by_cases hmem : key.entry ∈ made
    · have hpresent : key ∈ between :=
        (h.tabled key).mpr (.inr ⟨hkey, (h.fresh key hkey hmem).2⟩)
      have hlater : key.entry ∉ later := fun hlater => (h'.fresh key hkey hlater).1 hpresent
      rw [List.count_eq_zero_of_not_mem hlater, Nat.zero_add]
      exact h.once key hkey
    · rw [List.count_eq_zero_of_not_mem hmem]
      exact h'.once key hkey

theorem widen (hinner : view.Holds inner)
    (hsmaller : strictly' = true → strictly = true ∨ inner.size < view.size)
    (h : Entered strictly inner made before after) : Entered strictly' view made before after where
  below attempt hmem :=
    ⟨(h.below attempt hmem).1.widen hinner.first hinner.last hsmaller, (h.below attempt hmem).2⟩
  kept := h.kept
  tabled := hinner.source ▸ h.tabled
  fresh := hinner.source ▸ h.fresh
  once := hinner.source ▸ h.once

-- A call on the view itself is logged before all that is done to answer it.
theorem behind {own : List Attempt} (h : Entered strictly view made before between)
    (hown : ∀ attempt ∈ own, attempt.pos = view.pos ∧ attempt.stop = view.stop)
    (hkept : ∀ (key : MemoKey) (found : Match),
      between[key]? = some found → after[key]? = some found)
    (htabled : ∀ key, key ∈ after ↔ key ∈ between ∨ (key.Suits view.source ∧ key.call ∈ own))
    (hfresh : ∀ key : MemoKey, key.Suits view.source → key.entry ∈ own →
      key ∉ before ∧ key.call ∈ own ∧ key.entry ∉ made ∧ own.count key.entry ≤ 1) :
    Entered false view (made ++ own) before after where
  below attempt hmem := by
    rcases List.mem_append.mp hmem with hmem | hmem
    · obtain ⟨hbelow, hordered⟩ := h.below attempt hmem
      exact ⟨.mono (by simp) attempt hbelow, hordered⟩
    · obtain ⟨hpos, hstop⟩ := hown attempt hmem
      exact ⟨⟨hpos.ge, hstop.le, nofun⟩, hpos ▸ hstop ▸ view.ordered⟩
  kept key found hfound := hkept key found (h.kept key found hfound)
  tabled key := by
    rw [htabled, h.tabled, List.mem_append]
    tauto
  fresh key hkey hmem := by
    rcases List.mem_append.mp hmem with hmem | hmem
    · obtain ⟨habsent, hcall⟩ := h.fresh key hkey hmem
      exact ⟨habsent, List.mem_append_left own hcall⟩
    · obtain ⟨habsent, hcall, -⟩ := hfresh key hkey hmem
      exact ⟨habsent, List.mem_append_right made hcall⟩
  once key hkey := by
    rw [List.count_append]
    by_cases hmem : key.entry ∈ own
    · obtain ⟨-, -, hmade, hcount⟩ := hfresh key hkey hmem
      rw [List.count_eq_zero_of_not_mem hmade, Nat.zero_add]
      exact hcount
    · rw [List.count_eq_zero_of_not_mem hmem]
      exact h.once key hkey

theorem notMem (h : Entered true view made before after) (label : String) :
    ⟨label, view.pos, view.stop⟩ ∉ made := fun hmem =>
  Nat.lt_irrefl view.size ((h.below _ hmem).1.smaller rfl)

-- A call that is answered from the table.
theorem found (hname : name ∈ rememberedNames) (hfound : MemoKey.of name view ∈ table) :
    Entered false view [(MemoKey.of name view).call] table table := by
  have hown := MemoKey.suits_of hname view
  refine (nothing false view table).behind ?_ (fun _ _ hfound => hfound) (fun key => ?_)
    fun key hkey hmem => ?_
  · simp [MemoKey.call, MemoKey.of]
  · refine (or_iff_left_of_imp ?_).symm
    rintro ⟨hkey, hcall⟩
    rwa [hkey.eq_of_call hown (List.mem_singleton.mp hcall)]
  · exact absurd (List.mem_singleton.mp hmem) (MemoKey.entry_ne_call hkey hown)

-- The table has for the view what it had for it before.
theorem own_eq (h : Entered true view made before after) (name : String) :
    after[MemoKey.of name view]? = before[MemoKey.of name view]? := by
  cases hfound : before[MemoKey.of name view]? with
  | some found => exact h.kept _ found hfound
  | none =>
    rw [getElem?_eq_none_iff, h.tabled]
    rintro (hpresent | ⟨-, hcall⟩)
    · exact (getElem?_eq_none_iff _ _).mp hfound hpresent
    · exact h.notMem name hcall

-- A call that the table has no answer to. The body has called on strictly smaller views only, so
-- that the table has still no answer when the result is put there.
theorem missed (hname : name ∈ rememberedNames) (habsent : before[MemoKey.of name view]? = none)
    (h : Entered true view made before between) (result : Match) :
    Entered false view (made ++ [(MemoKey.of name view).entry, (MemoKey.of name view).call]) before
      (between.insert (.of name view) result) := by
  have hown := MemoKey.suits_of hname view
  have hbetween : between[MemoKey.of name view]? = none := (h.own_eq name).trans habsent
  refine h.behind ?_ (fun key found hfound => ?_) (fun key => ?_) fun key hkey hmem => ?_
  · simp [MemoKey.call, MemoKey.entry, MemoKey.of]
  · have hne : MemoKey.of name view ≠ key := by
      rintro rfl
      rw [hbetween] at hfound
      cases hfound
    simp only [Std.TreeMap.getElem?_insert, Std.LawfulEqCmp.compare_eq_iff_eq, hne, if_false,
      hfound]
  · rw [MemoTable.mem_insert, or_comm]
    refine or_congr_right ⟨?_, ?_⟩
    · rintro rfl
      exact ⟨hown, by simp⟩
    · rintro ⟨hkey, hcall⟩
      simp only [List.mem_cons, List.not_mem_nil, or_false] at hcall
      rcases hcall with hcall | hcall
      · exact absurd hcall.symm (MemoKey.entry_ne_call hown hkey)
      · exact hown.eq_of_call hkey hcall.symm
  · have heq : key = MemoKey.of name view := by
      simp only [List.mem_cons, List.not_mem_nil, or_false] at hmem
      rcases hmem with hmem | hmem
      · exact hkey.eq_of_entry hown hmem
      · exact absurd hmem (MemoKey.entry_ne_call hkey hown)
    subst heq
    have hne : (MemoKey.of name view).call ≠ (MemoKey.of name view).entry :=
      (MemoKey.entry_ne_call hown hown).symm
    have hkey : MemoKey.of name view ∉ before := (getElem?_eq_none_iff _ _).mp habsent
    exact ⟨hkey, by simp, h.notMem (entering name), by simp [hne]⟩

-- A call of a rule whose results are not remembered.
theorem passed {label : String} (hcall : ∀ name ∈ rememberedNames, name ≠ label)
    (hentry : ∀ name ∈ rememberedNames, entering name ≠ label)
    (h : Entered strictly view made before after) :
    Entered false view (made ++ [⟨label, view.pos, view.stop⟩]) before after := by
  refine h.behind (by simp) (fun _ _ hfound => hfound) (fun key => ?_) fun key hkey hmem => ?_
  · refine (or_iff_left_of_imp ?_).symm
    rintro ⟨hkey, hmem⟩
    exact absurd (congrArg Attempt.label (List.mem_singleton.mp hmem)) (hcall key.rule hkey.rule)
  · exact absurd (congrArg Attempt.label (List.mem_singleton.mp hmem)) (hentry key.rule hkey.rule)

end Entered

-- What was entered between two states is what the log has more of.
def ParseState.Enters (strictly : Bool) (view : View) (before after : ParseState) : Prop :=
  ∃ made, after.attempts = made ++ before.attempts ∧
    Entered strictly view made before.memo after.memo

theorem footprint_enters : Footprint ParseState.Enters where
  refl strictly view state := ⟨[], rfl, .nothing strictly view state.memo⟩
  trans := by
    rintro strictly view before between after ⟨made, hmade, h⟩ ⟨later, hlater, h'⟩
    exact ⟨later ++ made, by rw [hlater, hmade, List.append_assoc], h.trans h'⟩
  widen := by
    rintro strictly strictly' view inner before after hinner hsmaller ⟨made, hmade, h⟩
    exact ⟨made, hmade, h.widen hinner hsmaller⟩

-- The tables of two runs are the same, whatever is logged.
def ParseState.SameTable (state before : ParseState) : Prop := state.memo = before.memo

namespace Parser

theorem Simulates.remember {f g : Parser} (h : Simulates ParseState.SameTable f g)
    (rule : String) :
    Simulates ParseState.SameTable (Parser.remember rule f) (Parser.remember rule g) := by
  intro view result before after hrun state hsame
  have hlookup : state.memo[MemoKey.of rule view]? = before.memo[MemoKey.of rule view]? := by
    rw [show state.memo = before.memo from hsame]
  rcases run_remember_eq_ok.mp hrun with ⟨hfound, rfl⟩ | ⟨habsent, between, hinner, rfl⟩
  · exact ⟨state, run_remember_eq_ok.mpr (.inl ⟨hlookup.trans hfound, rfl⟩), hsame⟩
  · obtain ⟨between', hinner', hsame'⟩ := h view result before between hinner state hsame
    refine ⟨_, run_remember_eq_ok.mpr (.inr ⟨hlookup.trans habsent, between', hinner', rfl⟩), ?_⟩
    exact congrArg (fun table : MemoTable => table.insert (.of rule view) result) hsame'

end Parser

namespace Pattern

-- The call is logged before the table is looked into, and the entry behind that.
def noted (name : String) (p : Pattern) : Pattern :=
  watch name (remember name (watch (Grammar.entering name) p))

theorem enters_noted {rules : RuleName → Parser} {name : String} {p : Pattern} {view : View}
    (hname : name ∈ Grammar.rememberedNames)
    (h : ParseM.Changes (ParseState.Enters true view) (p.parser rules view)) :
    ParseM.Changes (ParseState.Enters false view) ((noted name p).parser rules view) := by
  intro before result after hgood hrun
  let called := { before with attempts := (MemoKey.of name view).call :: before.attempts }
  let entered := { called with attempts := (MemoKey.of name view).entry :: called.attempts }
  have hremember : (Parser.remember name (Parser.watch (Grammar.entering name) (p.parser rules))
      view).run called = .ok (result, after) := hrun
  rcases Parser.run_remember_eq_ok.mp hremember with
    ⟨hfound, rfl⟩ | ⟨habsent, between, hinner, rfl⟩
  · exact ⟨_, rfl, .found hname (MemoTable.mem_of_eq_some hfound)⟩
  · obtain ⟨made, hmade, hentered⟩ := h entered result between hgood hinner
    refine ⟨_, ?_, .missed hname habsent hentered result⟩
    simp only [hmade, entered, called, List.append_assoc, List.cons_append, List.nil_append]

theorem enters_watch {rules : RuleName → Parser} {label : String} {p : Pattern} {view : View}
    {strictly : Bool} (hcall : ∀ name ∈ Grammar.rememberedNames, name ≠ label)
    (hentry : ∀ name ∈ Grammar.rememberedNames, Grammar.entering name ≠ label)
    (h : ParseM.Changes (ParseState.Enters strictly view) (p.parser rules view)) :
    ParseM.Changes (ParseState.Enters false view) ((watch label p).parser rules view) := by
  intro before result after hgood hrun
  let called := { before with attempts := ⟨label, view.pos, view.stop⟩ :: before.attempts }
  obtain ⟨made, hmade, hentered⟩ := h called result after hgood hrun
  refine ⟨_, ?_, hentered.passed hcall hentry⟩
  simp only [hmade, called, List.append_assoc, List.cons_append, List.nil_append]

theorem simulates_noted {rules rules' : RuleName → Parser} (name : String) {p : Pattern}
    (h : Parser.Simulates ParseState.SameTable (p.parser rules) (p.parser rules')) :
    Parser.Simulates ParseState.SameTable ((noted name p).parser rules)
      ((remember name p).parser rules') :=
  have hlog : ∀ state before attempts, ParseState.SameTable state before →
      ParseState.SameTable { state with attempts := attempts } before := fun _ _ _ hsame => hsame
  ((h.watched hlog (Grammar.entering name)).remember name).watched hlog name

end Pattern

namespace Grammar

open Abacus.Pattern Abacus.Parser

variable {grammar : Grammar} {depth : Nat} {view : View} {p : Pattern}

-- The rules with every call and every entry in the log.
def notedRules (grammar : Grammar) : Rules where
  expression := noted "expr" (grammar.alternatives .expression (numeral true))
  argument := noted "arg_expr" (grammar.alternatives .argument (numeral false))
  arguments := watch "arg_list" argumentsBody
  named := []

-- Logging changes no match.
theorem keepMatches_notedRules (grammar : Grammar) : grammar.notedRules.KeepMatches :=
  Rules.keepMatches_of_calculator rfl
    (grammar.built_alternatives .expression (.numeral true)).changesMatches
    (grammar.built_alternatives .argument (.numeral false)).changesMatches
    built_argumentsBody.changesMatches

theorem isDisciplined_notedRules (depth : Nat) (rule : RuleName) :
    (grammar.notedRules.runWithin depth rule).IsDisciplined :=
  Rules.isDisciplined_runWithin grammar.keepMatches_notedRules depth rule

theorem enters_alternatives {rule : RuleName} (grouping : Bool)
    (hcalls : ∀ rule view, ParseM.Changes (ParseState.Enters false view)
      (grammar.notedRules.runWithin depth rule view)) :
    ParseM.Changes (ParseState.Enters true view)
      ((grammar.alternatives rule (numeral grouping)).parser (grammar.notedRules.runWithin depth)
        view) := by
  have hbuilt := grammar.built_alternatives rule (.numeral grouping)
  have h := changes_pattern footprint_enters (isDisciplined_notedRules depth) hcalls _
    hbuilt.changesMatches (.inl hbuilt.quiet) view
  rwa [guarded_alternatives] at h

theorem enters_notedRules (depth : Nat) (rule : RuleName) (view : View) :
    ParseM.Changes (ParseState.Enters false view) (grammar.notedRules.runWithin depth rule view) := by
  induction depth generalizing rule view with
  | zero => exact .throw _
  | succ depth ih =>
    cases rule with
    | expression => exact enters_noted (by decide) (enters_alternatives true ih)
    | argument => exact enters_noted (by decide) (enters_alternatives false ih)
    | arguments =>
      have hbody := changes_pattern footprint_enters (isDisciplined_notedRules depth) ih
        argumentsBody built_argumentsBody.changesMatches (.inl built_argumentsBody.quiet) view
      exact enters_watch (by decide) (by decide) hbody
    | named name => exact .throw _

theorem simulates_of_quiet {rules rules' : RuleName → Parser} (hp : p.quiet = true)
    (hrules : ∀ rule, Parser.Simulates ParseState.SameTable (rules rule) (rules' rule)) :
    Parser.Simulates ParseState.SameTable (p.parser rules) (p.parser rules') := by
  have hremembered := remembered_of_quiet hp
  have h := simulates_pattern (fun _ _ _ _ hsame => hsame) hrules p (by simp [hremembered])
  rwa [plain_eq_self hremembered] at h

theorem simulates_notedRules (depth : Nat) (rule : RuleName) :
    Parser.Simulates ParseState.SameTable (grammar.notedRules.runWithin depth rule)
      (grammar.rules.runWithin depth rule) := by
  induction depth generalizing rule with
  | zero => exact fun _ => .throw _ _
  | succ depth ih =>
    cases rule with
    | expression =>
      have hquiet := (grammar.built_alternatives .expression (.numeral true)).quiet
      exact simulates_noted "expr" (simulates_of_quiet hquiet ih)
    | argument =>
      have hquiet := (grammar.built_alternatives .argument (.numeral false)).quiet
      exact simulates_noted "arg_expr" (simulates_of_quiet hquiet ih)
    | arguments =>
      exact (simulates_of_quiet built_argumentsBody.quiet ih).watched (fun _ _ _ hsame => hsame) _
    | named name => exact fun _ => .throw _ _

-- Every run is also a run with the entries in the log, and the tables are the same.
theorem exists_notedRun (hp : p.quiet = true) (hmatches : p.changesMatches = false)
    {before after : ParseState} {result : Match} (hgood : before.Disciplined)
    (hrun : (p.parser (grammar.rules.runWithin depth) view).run before = .ok (result, after)) :
    ∃ made, (p.parser (grammar.notedRules.runWithin depth) view).run before =
        .ok (result, { after with attempts := made ++ before.attempts }) ∧
      Entered p.guarded view made before.memo after.memo := by
  obtain ⟨state, hstate, hsame⟩ :=
    simulates_of_quiet hp (simulates_notedRules depth) view result before after hrun before rfl
  obtain ⟨made, hmade, hentered⟩ := changes_pattern footprint_enters
    (isDisciplined_notedRules depth) (enters_notedRules depth) p hmatches (.inl hp) view before
    result state hgood hstate
  obtain ⟨table, attempts⟩ := state
  obtain rfl : table = after.memo := hsame
  obtain rfl : attempts = made ++ before.attempts := hmade
  exact ⟨made, hstate, hentered⟩

theorem exists_parseSource (grammar : Grammar) (text name : String) :
    ∃ result state, grammar.parseSource (.of name text) = .ok (result, state) ∧
      grammar.rules.Truthful wholeText state.memo := by
  obtain ⟨result, hplain, -⟩ :=
    (plain_wholeText_reads grammar (.whole (.of name text))).exists_pure
  have hempty : grammar.rules.Truthful wholeText ({} : ParseState).memo :=
    grammar.rules.truthful_empty wholeText
  obtain ⟨state, hrun, htruthful⟩ := run_of_plain rfl hplain hempty
  exact ⟨result, state, hrun, htruthful⟩

theorem guarded_remembered {rule : RuleName} {name : String} {body : Pattern}
    (h : grammar.rules.body? rule = some (.remember name body)) :
    Built body ∧ body.guarded = true := by
  cases rule with
  | expression =>
    cases h
    exact ⟨grammar.built_alternatives .expression (.numeral true),
      grammar.guarded_alternatives .expression true⟩
  | argument =>
    cases h
    exact ⟨grammar.built_alternatives .argument (.numeral false),
      grammar.guarded_alternatives .argument false⟩
  | arguments => cases h
  | named name => cases h

-- During a parse the body of each remembered rule is entered at most once on every view. In the end
-- the table has an entry for every call of such a rule, and no other one. However long a run goes
-- on, it leaves the entries that are there as they are, and a body leaves no entry for its own view,
-- so that its result is not put in the place of another one.
theorem bodies_are_entered_once (grammar : Grammar) :
    (∀ text name : String, ∃ result state log,
      grammar.parseSource (.of name text) = .ok (result, state) ∧
      (grammar.notedRules.run wholeText (.ofText text name)).run {} =
        .ok (result, { state with attempts := log }) ∧
      (∀ rule ∈ rememberedNames, ∀ pos stop : Nat, log.count ⟨entering rule, pos, stop⟩ ≤ 1) ∧
      (∀ key, key ∈ state.memo ↔ key.source = .of name text ∧ key.rule ∈ rememberedNames ∧
        ⟨key.rule, key.pos, key.stop⟩ ∈ log) ∧
      ∀ key ∈ state.memo, key.pos ≤ key.stop ∧ key.stop ≤ text.length) ∧
      (∀ (p : Pattern) (depth : Nat) (view : View) (before after : ParseState) (result : Match),
        p.quiet = true → p.changesMatches = false → before.Disciplined →
        (p.parser (grammar.rules.runWithin depth) view).run before = .ok (result, after) →
        ∀ (key : MemoKey) (found : Match),
          before.memo[key]? = some found → after.memo[key]? = some found) ∧
      ∀ (rule : RuleName) (name : String) (body : Pattern),
        grammar.rules.body? rule = some (.remember name body) →
        ∀ (depth : Nat) (view : View) (before after : ParseState) (result : Match),
          before.Disciplined →
          (body.parser (grammar.rules.runWithin depth) view).run before = .ok (result, after) →
          after.memo[MemoKey.of name view]? = before.memo[MemoKey.of name view]? := by
  refine ⟨fun text name => ?_, ?_, ?_⟩
  · obtain ⟨result, state, hrun, -⟩ := grammar.exists_parseSource text name
    obtain ⟨log, hnoted, hentered⟩ := exists_notedRun built_wholeText.quiet
      built_wholeText.changesMatches (ParseState.disciplined_of_empty rfl) hrun
    rw [List.append_nil] at hnoted
    have htabled : ∀ key, key ∈ state.memo ↔ key.source = .of name text ∧
        key.rule ∈ rememberedNames ∧ key.call ∈ log := by
      intro key
      rw [hentered.tabled]
      constructor
      · rintro (hempty | ⟨⟨hsource, hrule⟩, hcall⟩)
        · simp at hempty
        · exact ⟨hsource, hrule, hcall⟩
      · rintro ⟨hsource, hrule, hcall⟩
        exact .inr ⟨⟨hsource, hrule⟩, hcall⟩
    refine ⟨result, state, log, hrun, hnoted, ?_, htabled, fun key hkey => ?_⟩
    · intro rule hrule pos stop
      exact hentered.once ⟨rule, pos, stop, .of name text⟩ ⟨rfl, hrule⟩
    · obtain ⟨-, -, hcall⟩ := (htabled key).mp hkey
      obtain ⟨hbelow, hordered⟩ := hentered.below key.call hcall
      have hsize : (View.whole (.of name text)).stop = text.length := by
        change (Source.of name text).size = text.length
        rw [← Source.length_chars, Source.chars_of, String.length_toList]
      exact ⟨hordered, hsize ▸ hbelow.last⟩
  · intro p depth view before after result hquiet hmatches hgood hrun
    obtain ⟨made, -, hentered⟩ := exists_notedRun hquiet hmatches hgood hrun
    exact hentered.kept
  · intro rule name body hbody depth view before after result hgood hrun
    obtain ⟨hbuilt, hguarded⟩ := guarded_remembered hbody
    obtain ⟨made, -, hentered⟩ :=
      exists_notedRun hbuilt.quiet hbuilt.changesMatches hgood hrun
    rw [hguarded] at hentered
    exact hentered.own_eq name

-- A second parse of a sum leaves the entries of the first one as they are, and the alternatives by
-- themselves leave no entry for the sum.
theorem bodies_are_entered_once_for_a_sum :
    (∃ result state state', Grammar.parseSource ⟨[]⟩ (.of "" "1+1") = .ok (result, state) ∧
      ((Grammar.rules ⟨[]⟩).run wholeText (.ofText "1+1" "")).run state = .ok (result, state') ∧
      ∀ (key : MemoKey) (found : Match),
        state.memo[key]? = some found → state'.memo[key]? = some found) ∧
      ∃ result state,
        ((alternatives ⟨[]⟩ .expression (numeral true)).parser ((Grammar.rules ⟨[]⟩).runWithin 7)
          (.ofText "1+1" "")).run {} = .ok (result, state) ∧
        state.memo[MemoKey.of "expr" (.ofText "1+1" "")]? = none := by
  obtain ⟨-, hkept, hown⟩ := bodies_are_entered_once ⟨[]⟩
  have hempty : ({} : ParseState).Disciplined := ParseState.disciplined_of_empty rfl
  constructor
  · obtain ⟨result, state, hrun, htruthful⟩ := exists_parseSource ⟨[]⟩ "1+1" ""
    obtain ⟨result', hplain, -⟩ := (plain_wholeText_reads ⟨[]⟩ (.ofText "1+1" "")).exists_pure
    obtain ⟨state', hrun', -⟩ := run_of_plain rfl hplain htruthful
    have hsame : result' = result := by
      have hparse := parse_of_plain "1+1" "" hplain
      rw [parse, hrun] at hparse
      exact (Except.ok.inj hparse).symm
    have hgood : state.Disciplined :=
      (isDisciplined_pattern (Rules.isDisciplined_runWithin (keepMatches_rules ⟨[]⟩) _) wholeText
        built_wholeText.changesMatches _ {} result state hempty hrun).2
    exact ⟨result, state, state', hrun, hsame ▸ hrun', hkept wholeText _ _ state state' result'
      built_wholeText.quiet built_wholeText.changesMatches hgood hrun'⟩
  · have hbuilt : Built (alternatives ⟨[]⟩ .expression (numeral true)) :=
      built_alternatives ⟨[]⟩ .expression (.numeral true)
    have hreads : Reads ((plainRules ⟨[]⟩).runWithin 8 .expression) (.ofText "1+1" "") _ :=
      plainRules_reads ⟨[]⟩ (by decide) (by decide)
    obtain ⟨result, hplain, -⟩ := hreads.exists_pure
    have htruthful : (Grammar.rules ⟨[]⟩).Truthful (alternatives ⟨[]⟩ .expression (numeral true))
        ({} : ParseState).memo := Rules.truthful_empty _ _
    obtain ⟨state, hrun, -⟩ := runWithin_of_plain hbuilt.remembered hplain htruthful
    have hleft := hown .expression "expr" _ rfl 7 (.ofText "1+1" "") {} state result hempty hrun
    exact ⟨result, state, hrun, hleft.trans rfl⟩

end Grammar

end Abacus

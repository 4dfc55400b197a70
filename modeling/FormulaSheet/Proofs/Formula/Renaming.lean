import Mathlib
import FormulaSheet.Proofs.Formula.Spelling
import FormulaSheet.Proofs.Formula.Trace

namespace FormulaSheet

variable {rules : Naming} {normalize : String → String} {raw source : String} {t : Token}
  {ts : List Token} {raws : List String} {e : Expression}
  {lookup : String → Except EvalError Float}

def Token.rename (normalize : String → String) : Token → Token
  | name v => name (normalize v)
  | t => t

namespace Token

@[simp]
theorem startsOperand_rename (t : Token) :
    (t.rename normalize).startsOperand = t.startsOperand := by
  cases t <;> rfl

@[simp]
theorem endsOperand_rename (t : Token) : (t.rename normalize).endsOperand = t.endsOperand := by
  cases t <;> rfl

theorem mem_map_rename_iff {w : String} :
    name w ∈ ts.map (Token.rename normalize) ↔ ∃ v, name v ∈ ts ∧ normalize v = w := by
  rw [List.mem_map]
  constructor
  · rintro ⟨t, ht, he⟩
    cases t with
    | name v => exact ⟨v, ht, by simpa [Token.rename] using he⟩
    | _ => cases he
  · rintro ⟨v, hv, rfl⟩
    exact ⟨name v, hv, rfl⟩

/-- Under rules a text spells what it spells without them, renamed, if the rules accept that. -/
theorem spells_iff_exists : t.Spells rules raw ↔ ∃ t', t'.Spells {} raw ∧
    (∀ v, t' = name v → isVariable (rules.normalize v) ∧ rules.accepts (rules.normalize v)) ∧
    t'.rename rules.normalize = t := by
  constructor
  · intro h
    cases t with
    | name w =>
      obtain ⟨hv, hr⟩ := h
      obtain ⟨rfl, hw⟩ := Naming.resolve_eq_ok_iff.1 hr
      refine ⟨name raw, ⟨hv, Naming.resolve_eq_ok_iff.2 ⟨rfl, hv, rfl⟩⟩, ?_, rfl⟩
      rintro v ⟨⟩
      exact hw
    | number x => exact ⟨number x, h, by simp, rfl⟩
    | op o => exact ⟨op o, h, by simp, rfl⟩
    | opening => exact ⟨opening, h, by simp, rfl⟩
    | closing => exact ⟨closing, h, by simp, rfl⟩
  · rintro ⟨t', h, hv, rfl⟩
    cases t' with
    | name w =>
      obtain ⟨hraw, hr⟩ := h
      obtain ⟨rfl, -⟩ := Naming.resolve_eq_ok_iff.1 hr
      exact ⟨hraw, Naming.resolve_eq_ok_iff.2 ⟨rfl, hv _ rfl⟩⟩
    | _ => exact h

theorem forall₂_spells_iff_exists : List.Forall₂ (Spells rules) raws ts ↔
    ∃ ts', List.Forall₂ (Spells {}) raws ts' ∧
      (∀ v, name v ∈ ts' → isVariable (rules.normalize v) ∧ rules.accepts (rules.normalize v)) ∧
      ts'.map (Token.rename rules.normalize) = ts := by
  constructor
  · intro h
    induction h with
    | nil => exact ⟨[], .nil, by simp, rfl⟩
    | cons h _ ih =>
      obtain ⟨t', ht, hv, rfl⟩ := spells_iff_exists.1 h
      obtain ⟨ts', hts, hvs, rfl⟩ := ih
      refine ⟨t' :: ts', .cons ht hts, fun v hm => ?_, rfl⟩
      rcases List.mem_cons.1 hm with hm | hm
      · exact hv v hm.symm
      · exact hvs v hm
  · rintro ⟨ts', h, hv, rfl⟩
    induction h with
    | nil => exact .nil
    | cons h _ ih =>
      refine .cons (spells_iff_exists.2 ⟨_, h, fun v he => ?_, rfl⟩) (ih fun v hm => ?_)
      · exact hv v (he ▸ List.mem_cons_self)
      · exact hv v (List.mem_cons_of_mem _ hm)

end Token

namespace Expression

def rename (normalize : String → String) : Expression → Expression
  | number x => number x
  | name v => name (normalize v)
  | binary o left right => binary o (left.rename normalize) (right.rename normalize)

theorem Spelled.rename {l : Level} (h : Spelled l ts e) :
    Spelled l (ts.map (Token.rename normalize)) (e.rename normalize) := by
  induction h with
  | number x => exact .number x
  | name v => exact .name (normalize v)
  | group _ ih =>
    rw [List.map_cons, List.map_append]
    exact .group ih
  | operand _ ih => exact .operand ih
  | multiply ho _ _ ihl ihr =>
    rw [List.map_append, List.map_cons]
    exact .multiply ho ihl ihr
  | product _ ih => exact .product ih
  | add ho _ _ ihl ihr =>
    rw [List.map_append, List.map_cons]
    exact .add ho ihl ihr

theorem trace_rename (e : Expression) : (e.rename normalize).trace lookup =
    ((e.trace (lookup ∘ normalize)).1, (e.trace (lookup ∘ normalize)).2.map normalize) := by
  induction e with
  | number x => rfl
  | name v => rfl
  | binary o left right ihl ihr =>
    rw [rename]
    rcases hl : left.trace (lookup ∘ normalize) with ⟨err | x, asked⟩
    · rw [hl] at ihl
      rw [trace_binary_of_error hl, trace_binary_of_error ihl]
    rw [hl] at ihl
    rcases hr : right.trace (lookup ∘ normalize) with ⟨err | y, more⟩
    · rw [hr] at ihr
      rw [trace_binary_of_right_error hl hr, trace_binary_of_right_error ihl ihr, List.map_append]
    · rw [hr] at ihr
      rw [trace_binary_of_ok hl hr, trace_binary_of_ok ihl ihr, List.map_append]

end Expression

namespace Formula

variable {f : Formula}

def rename (normalize : String → String) (f : Formula) : Formula :=
  ⟨f.tokens.map (Token.rename normalize)⟩

namespace Beginning

def rename (normalize : String → String) (p : Beginning) : Beginning :=
  ⟨p.tokens.map (Token.rename normalize), p.depth⟩

theorem awaitsOperand_rename (p : Beginning) :
    (p.rename normalize).awaitsOperand = p.awaitsOperand := by
  unfold awaitsOperand rename
  cases p.tokens with
  | nil => rfl
  | cons t _ => simp

theorem enclose_rename (p : Beginning) (t : Token) :
    (p.rename normalize).enclose (t.rename normalize) = p.enclose t := by
  cases t <;> rfl

theorem extend?_rename (p : Beginning) (t : Token) :
    (p.rename normalize).extend? (t.rename normalize) =
      (p.extend? t).map (Beginning.rename normalize) := by
  rw [extend?, extend?, Token.startsOperand_rename, awaitsOperand_rename, enclose_rename]
  split
  · rw [Option.map_map]
    rfl
  · rfl

theorem extendAll_rename (ts : List Token) (p : Beginning) :
    (ts.map (Token.rename normalize)).foldlM extend? (p.rename normalize) =
      (ts.foldlM extend? p).map (Beginning.rename normalize) := by
  induction ts generalizing p with
  | nil => rfl
  | cons t ts ih =>
    rw [List.map_cons, List.foldlM_cons, List.foldlM_cons, extend?_rename]
    cases p.extend? t with
    | none => rfl
    | some q => exact ih q

end Beginning

/-- Where a token may stand does not depend on its name. -/
theorem grammatical_rename_iff :
    Grammatical (ts.map (Token.rename normalize)) ↔ Grammatical ts := by
  have hall : (ts.map (Token.rename normalize)).foldlM Beginning.extend? {} =
      (ts.foldlM Beginning.extend? {}).map (Beginning.rename normalize) :=
    Beginning.extendAll_rename ts {}
  unfold Grammatical
  rw [hall]
  constructor
  · rintro ⟨_, hq, ha, hd⟩
    obtain ⟨p, hp, rfl⟩ := Option.map_eq_some_iff.1 hq
    exact ⟨p, hp, p.awaitsOperand_rename.symm.trans ha, hd⟩
  · rintro ⟨p, hp, ha, hd⟩
    exact ⟨p.rename normalize, by rw [hp, Option.map_some], p.awaitsOperand_rename.trans ha, hd⟩

/-- Names that become the same are counted once. -/
theorem names_rename (f : Formula) :
    (f.rename normalize).names = Std.ExtTreeSet.ofList (f.names.toList.map normalize) := by
  apply Std.ExtTreeSet.ext_mem
  intro w
  rw [mem_names_iff, rename, Token.mem_map_rename_iff, Std.ExtTreeSet.mem_ofList,
    List.contains_iff_mem, List.mem_map]
  simp only [Std.ExtTreeSet.mem_toList, mem_names_iff]

theorem evaluateM_rename {m : Type → Type} [Monad m] (lookup : String → ExceptT EvalError m Float)
    (f : Formula) : (f.rename normalize).evaluateM lookup = f.evaluateM (lookup ∘ normalize) := by
  have hstep : ∀ (s : Stacks) (t : Token),
      s.step lookup (t.rename normalize) = s.step (lookup ∘ normalize) t := by
    intro s t
    cases t <;> rfl
  have hfold : ∀ (ts : List Token) (s : Stacks),
      (ts.map (Token.rename normalize)).foldlM (Stacks.step lookup) s =
        ts.foldlM (Stacks.step (lookup ∘ normalize)) s := by
    intro ts
    induction ts with
    | nil => exact fun _ => rfl
    | cons t ts ih =>
      intro s
      rw [List.map_cons, List.foldlM_cons, List.foldlM_cons, hstep]
      exact congrArg _ (funext ih)
  rw [evaluateM, evaluateM, rename, hfold]

theorem evaluate_rename (f : Formula) :
    (f.rename normalize).evaluate lookup = f.evaluate (lookup ∘ normalize) :=
  congrArg ExceptT.run (evaluateM_rename _ f)

theorem trace_rename (h : Expression.Spelled .sum f.tokens e) :
    (f.rename normalize).trace lookup = ((f.trace (lookup ∘ normalize)).1,
      (f.trace (lookup ∘ normalize)).2.map normalize) := by
  have hr : Expression.Spelled .sum (f.rename normalize).tokens (e.rename normalize) := h.rename
  rw [trace_eq hr, trace_eq h, Expression.trace_rename]

theorem parse_eq_ok_iff_exists : parse rules source = .ok f ↔ ∃ g, parse {} source = .ok g ∧
    (∀ v ∈ g.names, isVariable (rules.normalize v) ∧ rules.accepts (rules.normalize v)) ∧
    g.rename rules.normalize = f := by
  rw [parse_eq_ok_iff_spells, Token.forall₂_spells_iff_exists]
  simp only [parse_eq_ok_iff_spells, mem_names_iff]
  constructor
  · rintro ⟨⟨ts, hts, hv, he⟩, hg⟩
    rw [← he, grammatical_rename_iff] at hg
    exact ⟨⟨ts⟩, ⟨hts, hg⟩, hv, congrArg mk he⟩
  · rintro ⟨g, ⟨hts, hg⟩, hv, rfl⟩
    exact ⟨⟨g.tokens, hts, hv, rfl⟩, grammatical_rename_iff.2 hg⟩

/-- Whether a formula is another one with its variables renamed: it reads what the other one reads,
renamed and in the same order, and has the value that the other one has if its look-ups are
renamed. -/
structure Renames (normalize : String → String) (g f : Formula) : Prop where
  tokens_eq : f.tokens = g.tokens.map (Token.rename normalize)
  names_eq : f.names = Std.ExtTreeSet.ofList (g.names.toList.map normalize)
  evaluate_eq : ∀ lookup, f.evaluate lookup = g.evaluate (lookup ∘ normalize)
  evaluateM_eq : ∀ {m : Type → Type} [Monad m] (lookup : String → ExceptT EvalError m Float),
    f.evaluateM lookup = g.evaluateM (lookup ∘ normalize)
  trace_eq : ∀ lookup, f.trace lookup = ((g.trace (lookup ∘ normalize)).1,
    (g.trace (lookup ∘ normalize)).2.map normalize)

/-- Rules rename the variables of a formula and have no other influence on it; whether a text is
refused under them depends, besides the text, only on its variables. -/
theorem parse_renames (rules : Naming) (source : String) :
    (∀ f, parse rules source = .ok f →
      ∃ g, parse {} source = .ok g ∧ Renames rules.normalize g f) ∧
    ∀ g, parse {} source = .ok g →
      (∀ v ∈ g.names, isVariable (rules.normalize v) ∧ rules.accepts (rules.normalize v)) →
      ∃ f, parse rules source = .ok f := by
  constructor
  · intro f hf
    obtain ⟨g, hg, -, rfl⟩ := parse_eq_ok_iff_exists.1 hf
    obtain ⟨e, he⟩ := (parse_eq_ok_iff.1 hg).2.exists_spelled
    exact ⟨g, hg,
      { tokens_eq := rfl
        names_eq := names_rename g
        evaluate_eq := fun _ => evaluate_rename g
        evaluateM_eq := fun lookup => evaluateM_rename lookup g
        trace_eq := fun _ => trace_rename he }⟩
  · intro g hg hv
    exact ⟨_, parse_eq_ok_iff_exists.2 ⟨g, hg, hv, rfl⟩⟩

/-- Two names become one, and a name is replaced by a longer one. -/
theorem parse_renames_two :
    parse (Naming.uppercase {}) "a * A" = .ok ⟨[.name "A", .op .mul, .name "A"]⟩ ∧
      (∃ g, parse {} "a * A" = .ok g ∧
        Renames (Naming.uppercase {}).normalize g ⟨[.name "A", .op .mul, .name "A"]⟩) ∧
      parse {} "x" = .ok ⟨[.name "x"]⟩ ∧
      ∃ f, parse ⟨fun v => v ++ v, fun v => v == "xx"⟩ "x" = .ok f := by
  have h : parse (Naming.uppercase {}) "a * A" = .ok ⟨[.name "A", .op .mul, .name "A"]⟩ := by cbv
  have hx : parse {} "x" = .ok ⟨[.name "x"]⟩ := by cbv
  refine ⟨h, (parse_renames _ _).1 _ h, hx, (parse_renames _ _).2 _ hx fun v hv => ?_⟩
  obtain rfl : v = "x" := by simpa using mem_names_iff.1 hv
  decide

end Formula

end FormulaSheet

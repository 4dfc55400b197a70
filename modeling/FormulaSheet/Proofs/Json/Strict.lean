import FormulaSheet.Proofs.Json.Tree
import FormulaSheet.Proofs.Json.Words

namespace FormulaSheet.Json

variable {c : Char} {cs cs' w rest : List Char} {acc ls ls' : List Lexeme} {l : Lexeme}
  {key ps : List Piece} {t v : Tree}

section Sound

inductive Spells : Lexeme → List Char → Prop
  | mark {c : Char} {l : Lexeme} (h : mark? c = some l) : Spells l [c]
  | word {w : String} (h : w ∈ ["null", "true", "false"]) : Spells .word w.toList
  | number {w : List Char} (h : NumberText w) : Spells .number w
  | string {inside : List Char} {ps : List Piece} (h : Quoted inside ps) :
      Spells (.string ps) ('"' :: (inside ++ ['"']))

/-- Whether a text consists of the given lexemes, with any spaces around them. -/
inductive Lexed : List Lexeme → List Char → Prop
  | nil {sp : List Char} (h : Spaces sp) : Lexed [] sp
  | cons {sp w cs : List Char} {l : Lexeme} {ls : List Lexeme} (hs : Spaces sp) (hw : Spells l w)
      (h : Lexed ls cs) : Lexed (l :: ls) (sp ++ (w ++ cs))

theorem spells_of_readLexeme (h : readLexeme cs = some (l, rest)) :
    ∃ w, cs = w ++ rest ∧ Spells l w := by
  unfold readLexeme at h
  split at h
  · obtain ⟨⟨ps, r⟩, hr, he⟩ := Option.map_eq_some_iff.1 h
    cases he
    obtain ⟨inside, more, rfl, rfl, hq⟩ := quoted_of_readString hr
    exact ⟨'"' :: (inside ++ ['"']), by simp, .string hq⟩
  · cases h
    exact ⟨_, rfl, .word (w := "null") (by decide)⟩
  · cases h
    exact ⟨_, rfl, .word (w := "true") (by decide)⟩
  · cases h
    exact ⟨_, rfl, .word (w := "false") (by decide)⟩
  · obtain ⟨r, hr, he⟩ := Option.map_eq_some_iff.1 h
    cases he
    obtain ⟨w, hw, hn⟩ := number_of_skipNumber hr
    exact ⟨w, hw, .number hn⟩

theorem Lexed.space (h : Lexed ls cs) (hc : isSpace c) : Lexed ls (c :: cs) := by
  cases h with
  | nil h => exact .nil (spaces_cons_iff.2 ⟨hc, h⟩)
  | cons hs hw h => exact .cons (spaces_cons_iff.2 ⟨hc, hs⟩) hw h

theorem lexed_of_lexFrom (h : lexFrom acc cs = some ls) :
    ∃ more, ls = acc.reverse ++ more ∧ Lexed more cs := by
  have hnil : Spaces [] := List.forall_mem_nil _
  fun_induction lexFrom acc cs with
  | case1 acc =>
    cases h
    exact ⟨[], (List.append_nil _).symm, .nil hnil⟩
  | case2 acc c cs hc ih =>
    obtain ⟨more, rfl, hl⟩ := ih h
    exact ⟨more, rfl, hl.space hc⟩
  | case3 acc c cs _ l hm ih =>
    obtain ⟨more, rfl, hl⟩ := ih h
    exact ⟨l :: more, by simp, .cons hnil (.mark hm) hl⟩
  | case4 acc c cs _ _ l rest hr ih =>
    obtain ⟨more, rfl, hl⟩ := ih h
    obtain ⟨w, hw, hspells⟩ := spells_of_readLexeme hr
    exact ⟨l :: more, by simp, hw ▸ .cons hnil hspells hl⟩
  | case5 => cases h

theorem Lexed.split (h : Lexed (ls ++ ls') cs) :
    ∃ cs₁ cs₂, cs = cs₁ ++ cs₂ ∧ Lexed ls cs₁ ∧ Lexed ls' cs₂ := by
  induction ls generalizing cs with
  | nil => exact ⟨[], cs, rfl, .nil (List.forall_mem_nil _), h⟩
  | cons l ls ih =>
    cases h with
    | cons hs hw h =>
      obtain ⟨cs₁, cs₂, rfl, h₁, h₂⟩ := ih h
      exact ⟨_, cs₂, by simp, .cons hs hw h₁, h₂⟩

theorem Spells.eq_mark (h : Spells l w) (hc : mark? c = some l) : w = [c] := by
  cases h with
  | mark h => rw [mark?_inj hc h]
  | word | number | string => simpa using mark?_mem hc

theorem Lexed.mark (h : Lexed (l :: ls) cs) (hc : mark? c = some l) :
    ∃ sp rest, cs = sp ++ c :: rest ∧ Spaces sp ∧ Lexed ls rest := by
  cases h with
  | cons hs hw h => exact ⟨_, _, by rw [hw.eq_mark hc]; rfl, hs, h⟩

theorem Lexed.single (h : Lexed [l] cs) :
    ∃ sp w sp', cs = sp ++ (w ++ sp') ∧ Spaces sp ∧ Spells l w ∧ Spaces sp' := by
  cases h with
  | cons hs hw h =>
    cases h with
    | nil h => exact ⟨_, _, _, rfl, hs, hw, h⟩

theorem Lexed.member (h : Lexed (.string key :: .colon :: ls) cs) :
    ∃ sp inside sp' rest, cs = sp ++ '"' :: (inside ++ '"' :: (sp' ++ ':' :: rest)) ∧ Spaces sp ∧
      Quoted inside key ∧ Spaces sp' ∧ Lexed ls rest := by
  cases h with
  | cons hs hw h =>
    obtain ⟨sp', rest, rfl, hs', h⟩ := h.mark (c := ':') rfl
    cases hw with
    | mark hm => simpa using mark?_mem hm
    | string hq => exact ⟨_, _, sp', rest, by simp, hs, hq, hs', h⟩

mutual

/-- A text that consists of the lexemes of a value is written as the grammar of JSON says. -/
theorem element_of_lexed {cs : List Char} : ∀ t : Tree, Lexed t.lexemes cs → Written (.element t) cs
  | .word, h => by
    obtain ⟨sp, w, sp', rfl, hs, hw, hs'⟩ := Lexed.single h
    cases hw with
    | mark hm => simpa using mark?_mem hm
    | word hw => exact .element hs (.word hw) hs'
  | .number, h => by
    obtain ⟨sp, w, sp', rfl, hs, hw, hs'⟩ := Lexed.single h
    cases hw with
    | mark hm => simpa using mark?_mem hm
    | number hw => exact .element hs (.number hw) hs'
  | .string ps, h => by
    obtain ⟨sp, w, sp', rfl, hs, hw, hs'⟩ := Lexed.single h
    cases hw with
    | mark hm => simpa using mark?_mem hm
    | string hw => exact .element hs (.string hw) hs'
  | .array [], h => by
    obtain ⟨sp, rest, rfl, hs, h⟩ := Lexed.mark (c := '[') h rfl
    obtain ⟨sp', rest', rfl, hs', h⟩ := h.mark (c := ']') rfl
    cases h with
    | nil h => simpa using Written.element hs (.emptyArray hs') h
  | .array (t :: ts), h => by
    obtain ⟨sp, rest, rfl, hs, h⟩ := Lexed.mark (c := '[') h rfl
    obtain ⟨cs₁, cs₂, rfl, h₁, h₂⟩ := h.split
    obtain ⟨sp₁, inner, sp₂, rfl, hs₁, hi, hs₂⟩ := items_of_lexed ts h₂
    simpa using Written.element hs (.array ((element_of_lexed t h₁).element_append hs₁) hi) hs₂
  | .object [], h => by
    obtain ⟨sp, rest, rfl, hs, h⟩ := Lexed.mark (c := '{') h rfl
    obtain ⟨sp', rest', rfl, hs', h⟩ := h.mark (c := '}') rfl
    cases h with
    | nil h => simpa using Written.element hs (.emptyObject hs') h
  | .object ((key, t) :: ms), h => by
    obtain ⟨sp, rest, rfl, hs, h⟩ := Lexed.mark (c := '{') h rfl
    obtain ⟨spk, inside, spc, rest, rfl, hk, hq, hc, h⟩ := h.member
    obtain ⟨cs₁, cs₂, rfl, h₁, h₂⟩ := h.split
    obtain ⟨sp₁, inner, sp₂, rfl, hs₁, hi, hs₂⟩ := members_of_lexed ms h₂
    have hm := Written.member hk hq hc ((element_of_lexed t h₁).element_append hs₁)
    simpa using Written.element hs (.object hm hi) hs₂

/-- Spaces in front of the first comma or of the closing mark belong to the item before them. -/
theorem items_of_lexed {cs : List Char} : ∀ ts : List Tree, Lexed (itemLexemes ts) cs →
    ∃ sp inner sp', cs = sp ++ (inner ++ ']' :: sp') ∧ Spaces sp ∧ Written (.items ts) inner ∧
      Spaces sp'
  | [], h => by
    obtain ⟨sp, rest, rfl, hs, h⟩ := Lexed.mark (c := ']') h rfl
    cases h with
    | nil h => exact ⟨sp, [], rest, rfl, hs, .noItem, h⟩
  | t :: ts, h => by
    obtain ⟨sp, rest, rfl, hs, h⟩ := Lexed.mark (c := ',') h rfl
    obtain ⟨cs₁, cs₂, rfl, h₁, h₂⟩ := h.split
    obtain ⟨sp₁, inner, sp₂, rfl, hs₁, hi, hs₂⟩ := items_of_lexed ts h₂
    have ht := (element_of_lexed t h₁).element_append hs₁
    exact ⟨sp, _, sp₂, by simp, hs, .item ht hi, hs₂⟩

theorem members_of_lexed {cs : List Char} : ∀ ms : List (List Piece × Tree),
    Lexed (memberLexemes ms) cs → ∃ sp inner sp', cs = sp ++ (inner ++ '}' :: sp') ∧ Spaces sp ∧
      Written (.members ms) inner ∧ Spaces sp'
  | [], h => by
    obtain ⟨sp, rest, rfl, hs, h⟩ := Lexed.mark (c := '}') h rfl
    cases h with
    | nil h => exact ⟨sp, [], rest, rfl, hs, .noMember, h⟩
  | (key, t) :: ms, h => by
    obtain ⟨sp, rest, rfl, hs, h⟩ := Lexed.mark (c := ',') h rfl
    obtain ⟨spk, inside, spc, rest, rfl, hk, hq, hc, h⟩ := h.member
    obtain ⟨cs₁, cs₂, rfl, h₁, h₂⟩ := h.split
    obtain ⟨sp₁, inner, sp₂, rfl, hs₁, hi, hs₂⟩ := members_of_lexed ms h₂
    have hm := Written.member hk hq hc ((element_of_lexed t h₁).element_append hs₁)
    exact ⟨sp, _, sp₂, by simp, hs, .more hm hi, hs₂⟩

end

/-- Whether the lexemes close what is open around a value, and what then comes of it. -/
def Closes : List Frame → Tree → List Lexeme → Tree → Prop
  | [], v, ls, t => ls = [] ∧ v = t
  | .array items :: stack, v, ls, t => ∃ ts ls', ls = itemLexemes ts ++ ls' ∧
      Closes stack (.array (items.reverse ++ v :: ts)) ls' t
  | .object members key :: stack, v, ls, t => ∃ ms ls', ls = memberLexemes ms ++ ls' ∧
      Closes stack (.object (members.reverse ++ (key, v) :: ms)) ls' t

mutual

theorem closes_of_readValue (stack : List Frame) (ls : List Lexeme)
    (h : readValue stack ls = some t) : ∃ v ls', ls = v.lexemes ++ ls' ∧ Closes stack v ls' t := by
  unfold readValue at h
  split at h
  · exact ⟨.word, _, rfl, closes_of_readAfter _ _ _ h⟩
  · exact ⟨.number, _, rfl, closes_of_readAfter _ _ _ h⟩
  · exact ⟨.string _, _, rfl, closes_of_readAfter _ _ _ h⟩
  · exact ⟨.array [], _, rfl, closes_of_readAfter _ _ _ h⟩
  · obtain ⟨v, ls', rfl, ts, ls'', rfl, hc⟩ := closes_of_readValue _ _ h
    exact ⟨.array (v :: ts), ls'', by simp [Tree.lexemes], hc⟩
  · exact ⟨.object [], _, rfl, closes_of_readAfter _ _ _ h⟩
  · next key ls =>
    obtain ⟨v, ls', rfl, ms, ls'', rfl, hc⟩ := closes_of_readValue _ _ h
    exact ⟨.object ((key, v) :: ms), ls'', by simp [Tree.lexemes], hc⟩
  · cases h
termination_by ls.length

theorem closes_of_readAfter (stack : List Frame) (v : Tree) (ls : List Lexeme)
    (h : readAfter stack v ls = some t) : Closes stack v ls t := by
  unfold readAfter at h
  split at h
  · split at h
    · next hs => exact List.isEmpty_iff.1 hs ▸ ⟨rfl, Option.some_inj.1 h⟩
    · cases h
  · next key ls =>
    split at h
    · obtain ⟨u, ls', rfl, ms, ls'', rfl, hc⟩ := closes_of_readValue _ _ h
      exact ⟨(key, u) :: ms, ls'', by simp [memberLexemes], by simpa using hc⟩
    · cases h
  · split at h
    · obtain ⟨u, ls', rfl, ts, ls'', rfl, hc⟩ := closes_of_readValue _ _ h
      exact ⟨u :: ts, ls'', by simp [itemLexemes], by simpa using hc⟩
    · cases h
  · split at h
    · exact ⟨[], _, rfl, by simpa using closes_of_readAfter _ _ _ h⟩
    · cases h
  · split at h
    · exact ⟨[], _, rfl, by simpa using closes_of_readAfter _ _ _ h⟩
    · cases h
  · cases h
termination_by ls.length

end

end Sound

section Complete

variable {sp : List Char}

/-- Whether a text is read as the given lexemes in front of anything that ends a word. -/
def LexesWord (cs : List Char) (ls : List Lexeme) : Prop :=
  ∀ acc rest, Ends rest → lexFrom acc (cs ++ rest) = lexFrom (ls.reverse ++ acc) rest

theorem Lexes.word (h : Lexes cs ls) : LexesWord cs ls := fun acc rest _ => h acc rest

theorem Lexes.append_word (h : Lexes cs ls) (h' : LexesWord cs' ls') :
    LexesWord (cs ++ cs') (ls ++ ls') := by
  intro acc rest hr
  rw [List.append_assoc, h, h' _ _ hr, List.reverse_append, List.append_assoc]

theorem LexesWord.append (h : LexesWord cs ls) (h' : Lexes cs' ls')
    (he : ∀ rest, Ends (cs' ++ rest)) : Lexes (cs ++ cs') (ls ++ ls') := by
  intro acc rest
  rw [List.append_assoc, h _ _ (he rest), h', List.reverse_append, List.append_assoc]

theorem lexes_spaces (h : Spaces sp) : Lexes sp [] := by
  intro acc rest
  induction sp with
  | nil => rfl
  | cons c sp ih =>
    obtain ⟨hc, h⟩ := spaces_cons_iff.1 h
    rw [List.cons_append, lexFrom_space hc]
    exact ih h

theorem lexes_mark (h : mark? c = some l) : Lexes [c] [l] := fun _ _ => lexFrom_mark h

theorem Spaces.ends (h : Spaces sp) (hr : Ends rest) : Ends (sp ++ rest) := by
  cases sp with
  | nil => exact hr
  | cons c sp =>
    rintro _ ⟨⟩
    exact .inl (spaces_cons_iff.1 h).1

theorem ends_mark (h : mark? c = some l) (cs : List Char) : Ends (c :: cs) := by
  rintro _ ⟨⟩
  simp [h]

theorem LexesWord.spaces (h : LexesWord cs ls) (hs : Spaces sp) : LexesWord (cs ++ sp) ls := by
  intro acc rest hr
  rw [List.append_assoc, h _ _ (hs.ends hr)]
  exact lexes_spaces hs _ _

theorem lexes_string (h : Quoted cs ps) : Lexes ('"' :: (cs ++ ['"'])) [.string ps] := by
  intro acc rest
  rw [List.cons_append, List.append_assoc]
  exact lexFrom_string (readString_of_quoted h [] rest)

theorem lexes_word {w : String} (h : w ∈ ["null", "true", "false"]) : Lexes w.toList [.word] := by
  simp only [List.mem_cons, List.not_mem_nil, or_false] at h
  obtain rfl | rfl | rfl := h <;> exact fun _ _ => lexFrom_lexeme rfl rfl rfl

theorem lexesWord_number (h : NumberText w) : LexesWord w [.number] := by
  intro acc rest hr
  have hskip := skipNumber_append h hr
  obtain ⟨c, cs, rfl, hc⟩ := h.exists_cons
  rw [List.cons_append] at hskip ⊢
  have hends : ¬(isSpace c ∨ (mark? c).isSome) := by
    intro he
    obtain ⟨hd, hn⟩ := ne_of_ends_word he
    simp_all
  rw [not_or, Bool.not_eq_true, Bool.not_eq_true, Option.isSome_eq_false_iff,
    Option.isNone_iff_eq_none] at hends
  refine lexFrom_lexeme hends.1 hends.2 ?_
  rw [readLexeme_number hc, hskip]
  rfl

/-- How a text that the grammar allows is read. The closing mark is not part of the items of an
array or the members of an object, but what ends them. -/
def Phrase.Read : Phrase → List Char → Prop
  | .value t, cs | .element t, cs => LexesWord cs t.lexemes
  | .items ts, cs => Lexes (cs ++ [']']) (itemLexemes ts)
  | .member key t, cs => LexesWord cs (.string key :: .colon :: t.lexemes)
  | .members ms, cs => Lexes (cs ++ ['}']) (memberLexemes ms)

theorem Written.ends_items {ts : List Tree} (h : Written (.items ts) cs) (rest : List Char) :
    Ends (cs ++ [']'] ++ rest) := by
  cases h with
  | noItem => exact ends_mark (l := .closeArray) rfl _
  | item => exact ends_mark (l := .comma) rfl _

theorem Written.ends_members {ms : List (List Piece × Tree)} (h : Written (.members ms) cs)
    (rest : List Char) : Ends (cs ++ ['}'] ++ rest) := by
  cases h with
  | noMember => exact ends_mark (l := .closeObject) rfl _
  | more => exact ends_mark (l := .comma) rfl _

theorem Written.read {p : Phrase} (h : Written p cs) : p.Read cs := by
  induction h with
  | word hw => exact (lexes_word hw).word
  | number hw => exact lexesWord_number hw
  | string hq => exact (lexes_string hq).word
  | emptyArray hs =>
    exact ((lexes_mark rfl).append ((lexes_spaces hs).append (lexes_mark rfl))).word
  | array _ hs ih ihs =>
    exact ((lexes_mark rfl).append (LexesWord.append ih ihs hs.ends_items)).word
  | emptyObject hs =>
    exact ((lexes_mark rfl).append ((lexes_spaces hs).append (lexes_mark rfl))).word
  | object _ hs ih ihs =>
    exact ((lexes_mark rfl).append (LexesWord.append ih ihs hs.ends_members)).word
  | element hb _ ha ih => exact (lexes_spaces hb).append_word (LexesWord.spaces ih ha)
  | noItem => exact lexes_mark rfl
  | item _ hs ih ihs =>
    have hi := (lexes_mark (c := ',') rfl).append (LexesWord.append ih ihs hs.ends_items)
    simpa [Phrase.Read, itemLexemes] using hi
  | member hb hq ha _ ih =>
    have hk := ((lexes_spaces hb).append (lexes_string hq)).append
      ((lexes_spaces ha).append (lexes_mark (c := ':') rfl))
    simpa [Phrase.Read] using hk.append_word ih
  | noMember => exact lexes_mark rfl
  | more _ hs ih ihs =>
    have hm := (lexes_mark (c := ',') rfl).append (LexesWord.append ih ihs hs.ends_members)
    simpa [Phrase.Read, memberLexemes] using hm

end Complete

variable {text : String}

theorem lexed_of_parse (h : parse text = some t) : Lexed t.lexemes text.toList := by
  obtain ⟨ls, hl, hv⟩ := Option.bind_eq_some_iff.1 h
  obtain ⟨more, rfl, hlexed⟩ := lexed_of_lexFrom hl
  obtain ⟨v, ls', he, rfl, rfl⟩ := closes_of_readValue _ _ hv
  rw [List.append_nil] at he
  exact he ▸ hlexed

/-- A text is read as JSON just when the grammar allows it, and as the value that it writes. -/
theorem parse_eq_some_iff : parse text = some t ↔ Written (.element t) text.toList := by
  constructor
  · exact fun h => element_of_lexed t (lexed_of_parse h)
  · intro h
    have hr := h.read [] [] fun c hc => by cases hc
    rw [List.append_nil, List.append_nil, lexFrom, List.reverse_reverse] at hr
    exact parse_of_lex hr

end FormulaSheet.Json

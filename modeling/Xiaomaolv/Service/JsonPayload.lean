import Xiaomaolv.Lib.JsonGrammar
import Xiaomaolv.Loop.Text
import Xiaomaolv.Service.ToolProtocol

/-!
# The JSON in a reply is found

The scan keeps a stack of open brackets. Inside a bracket it passes over every text of the grammar and comes out with
the stack it had, so from the first bracket of an object or an array it stops at the last one, whatever follows.

* `PassedOver`: the texts that the scan passes over; `passedOver_derives`: those of the grammar.
* **`findJsonSegmentEnd_container`**: the end of an object or an array.
* `SerdeJson.ValueAt`: an object or an array that the parser accepts begins at a position.
* **`extractJsonPayload_sound_complete`**: what is found is such a value, and the first one is found.
-/

namespace Xiaomaolv

open JsonGrammar Replace

/-! ## The texts that the scan passes over -/

/-- Inside a bracket, the scan passes over the text and keeps its stack. -/
def PassedOver (l : List Char) : Prop :=
  ∀ (top : Char) (stack rest : List Char), findJsonSegmentEnd (l ++ rest) (top :: stack) false false =
    (findJsonSegmentEnd rest (top :: stack) false false).map (· + l.length)

theorem map_add_add (x : Option Nat) (m n : Nat) : (x.map (· + m)).map (· + n) = x.map (· + (m + n)) := by
  rw [Option.map_map]
  congr 1
  funext k
  exact Nat.add_assoc k m n

theorem passedOver_nil : PassedOver [] := by
  intro top stack rest
  exact Option.map_id'.symm

theorem PassedOver.append {l l' : List Char} (h : PassedOver l) (h' : PassedOver l') : PassedOver (l ++ l') := by
  intro top stack rest
  rw [List.append_assoc, h top stack, h' top stack, map_add_add, List.length_append, Nat.add_comm]

/-- Neither a quote nor a bracket. -/
def isNeutral (c : Char) : Bool := !(['"', '{', '[', '}', ']'].contains c)

theorem findJsonSegmentEnd_neutral {c : Char} (hc : isNeutral c) (cs stack : List Char) :
    findJsonSegmentEnd (c :: cs) stack false false = (findJsonSegmentEnd cs stack false false).map (· + 1) := by
  simp only [isNeutral, List.contains_cons, List.contains_nil, Bool.or_false, Bool.not_or, Bool.and_eq_true,
    Bool.not_eq_true', beq_eq_false_iff_ne, ne_eq] at hc
  obtain ⟨h₁, h₂, h₃, h₄, h₅⟩ := hc
  rw [findJsonSegmentEnd, if_neg h₁, if_neg (by simp [h₂, h₃]), if_neg (by simp [h₄, h₅])]

theorem passedOver_neutral {l : List Char} (h : ∀ c ∈ l, isNeutral c) : PassedOver l := by
  induction l with
  | nil => exact passedOver_nil
  | cons c l ih =>
    intro top stack rest
    rw [List.cons_append, findJsonSegmentEnd_neutral (h c List.mem_cons_self),
      ih (fun c hc => h c (List.mem_cons_of_mem _ hc)) top stack, map_add_add, List.length_cons]

/-! ## Strings -/

theorem findJsonSegmentEnd_chars {cs : List Char} (h : Chars cs) (stack rest : List Char) :
    findJsonSegmentEnd (cs ++ '"' :: rest) stack true false =
      (findJsonSegmentEnd rest stack false false).map (· + (cs.length + 1)) := by
  induction h with
  | nil =>
    rw [List.nil_append, findJsonSegmentEnd, if_neg (by decide), if_pos rfl]
    rfl
  | @plain c cs hc h ih =>
    have hne : c ≠ '\\' ∧ c ≠ '"' := by
      simp only [unescaped, ne_eq, Bool.and_eq_true, decide_eq_true_eq] at hc
      exact ⟨hc.2, hc.1.2⟩
    rw [List.cons_append, findJsonSegmentEnd, if_neg hne.1, if_neg hne.2, ih, map_add_add, List.length_cons]
  | @escape c cs hc h ih =>
    rw [List.cons_append, findJsonSegmentEnd, if_pos rfl, List.cons_append, findJsonSegmentEnd, ih, map_add_add,
      map_add_add, List.length_cons, List.length_cons]
  | @unicode a b c d cs hhex h ih =>
    have hplain : ∀ x ∈ [a, b, c, d], x ≠ '\\' ∧ x ≠ '"' := by
      intro x hx
      have hx' := hhex x hx
      constructor <;> rintro rfl <;> cases hx'
    simp only [List.forall_mem_cons, List.not_mem_nil, false_imp_iff, implies_true, and_true] at hplain
    obtain ⟨ha, hb, hc, hd⟩ := hplain
    simp only [List.cons_append]
    rw [findJsonSegmentEnd, if_pos rfl, findJsonSegmentEnd, findJsonSegmentEnd, if_neg ha.1, if_neg ha.2,
      findJsonSegmentEnd, if_neg hb.1, if_neg hb.2, findJsonSegmentEnd, if_neg hc.1, if_neg hc.2, findJsonSegmentEnd,
      if_neg hd.1, if_neg hd.2, ih]
    simp only [map_add_add, List.length_cons]

theorem passedOver_string {l : List Char} (h : Str l) : PassedOver l := by
  obtain ⟨cs, hcs, rfl⟩ := h
  intro top stack rest
  rw [List.cons_append, List.append_assoc, List.singleton_append, findJsonSegmentEnd, if_pos rfl,
    findJsonSegmentEnd_chars hcs, map_add_add]
  simp only [List.length_cons, List.length_append, List.length_nil]

/-! ## Numbers and whitespace -/

theorem isNeutral_of_mem {c : Char} {l : List Char} (hc : c ∈ l) (hl : l.all isNeutral = true) : isNeutral c :=
  List.all_eq_true.mp hl c hc

theorem isNeutral_of_isDigit {c : Char} (hc : c.isDigit) : isNeutral c := by
  by_contra h
  simp only [isNeutral, List.contains_cons, List.contains_nil, Bool.or_false, Bool.not_or, Bool.not_eq_true,
    Bool.and_eq_false_iff, Bool.not_eq_false', beq_iff_eq] at h
  rcases h with rfl | rfl | rfl | rfl | rfl <;> cases hc

theorem passedOver_ws {l : List Char} (h : Ws l) : PassedOver l := by
  refine passedOver_neutral fun c hc => ?_
  have hws := h c hc
  simp only [isWs, Bool.or_eq_true, decide_eq_true_eq] at hws
  rcases hws with ((rfl | rfl) | rfl) | rfl <;> rfl

theorem passedOver_digits {l : List Char} (h : Digits l) : PassedOver l :=
  passedOver_neutral fun c hc => isNeutral_of_isDigit (h.2 c hc)

theorem passedOver_number {l : List Char} (h : Number l) : PassedOver l := by
  obtain ⟨sign, int, frac, exp, hsign, hint, hfrac, hexp, rfl⟩ := h
  have hsign' : PassedOver sign := by
    refine passedOver_neutral fun c hc => isNeutral_of_mem hc ?_
    fin_cases hsign <;> rfl
  have hint' : PassedOver int := by
    rcases hint with rfl | ⟨hdigits, -⟩
    · exact passedOver_neutral fun c hc => isNeutral_of_mem hc rfl
    · exact passedOver_digits hdigits
  have hfrac' : PassedOver frac := by
    rcases hfrac with rfl | ⟨digits, hdigits, rfl⟩
    · exact passedOver_nil
    · exact (passedOver_neutral (l := ['.']) fun c hc => isNeutral_of_mem hc rfl).append (passedOver_digits hdigits)
  have hexp' : PassedOver exp := by
    rcases hexp with rfl | ⟨e, sign, digits, he, hs, hdigits, rfl⟩
    · exact passedOver_nil
    · have hhead : PassedOver (e :: sign) := by
        refine passedOver_neutral fun c hc => isNeutral_of_mem hc ?_
        fin_cases he <;> fin_cases hs <;> rfl
      exact hhead.append (passedOver_digits hdigits)
  exact hsign'.append (hint'.append (hfrac'.append hexp'))

/-! ## Brackets -/

theorem findJsonSegmentEnd_bracketed {o c : Char} {l : List Char} (ho : (o, c) ∈ [('{', '}'), ('[', ']')])
    (h : PassedOver l) (stack rest : List Char) : findJsonSegmentEnd (o :: (l ++ c :: rest)) stack false false =
      if stack.isEmpty then some (l.length + 2)
      else (findJsonSegmentEnd rest stack false false).map (· + (l.length + 2)) := by
  have hopen : findJsonSegmentEnd (o :: (l ++ c :: rest)) stack false false =
      (findJsonSegmentEnd (l ++ c :: rest) (o :: stack) false false).map (· + 1) := by
    rw [findJsonSegmentEnd]
    fin_cases ho <;> rfl
  have hclose : findJsonSegmentEnd (c :: rest) (o :: stack) false false =
      if stack.isEmpty then some 1 else (findJsonSegmentEnd rest stack false false).map (· + 1) := by
    rw [findJsonSegmentEnd]
    fin_cases ho <;> rfl
  rw [hopen, h o stack, hclose]
  split_ifs
  · simp only [Option.map_some, Option.some.injEq]
    omega
  · rw [map_add_add, map_add_add]
    congr 2
    funext n
    omega

theorem passedOver_bracketed {o c : Char} {l : List Char} (ho : (o, c) ∈ [('{', '}'), ('[', ']')]) (h : PassedOver l) :
    PassedOver (o :: (l ++ [c])) := by
  intro top stack rest
  rw [List.cons_append, List.append_assoc, List.singleton_append, findJsonSegmentEnd_bracketed ho h]
  simp only [List.isEmpty_cons, Bool.false_eq_true, if_false, List.length_cons, List.length_append, List.length_nil]

theorem passedOver_derives {n : Nonterminal} {l : List Char} (h : Derives n l) : PassedOver l := by
  have hcomma : PassedOver [','] := passedOver_neutral fun c hc => isNeutral_of_mem hc rfl
  have hcolon : PassedOver [':'] := passedOver_neutral fun c hc => isNeutral_of_mem hc rfl
  induction h with
  | null => exact passedOver_neutral fun c hc => isNeutral_of_mem hc rfl
  | true => exact passedOver_neutral fun c hc => isNeutral_of_mem hc rfl
  | false => exact passedOver_neutral fun c hc => isNeutral_of_mem hc rfl
  | number h => exact passedOver_number h
  | string h => exact passedOver_string h
  | emptyObject hw => exact passedOver_bracketed (by simp) (passedOver_ws hw)
  | object h ih => exact passedOver_bracketed (by simp) ih
  | emptyArray hw => exact passedOver_bracketed (by simp) (passedOver_ws hw)
  | array h ih => exact passedOver_bracketed (by simp) ih
  | element hw h hw' ih => exact (passedOver_ws hw).append (ih.append (passedOver_ws hw'))
  | elements h h' ih ih' => exact ih.append (hcomma.append ih')
  | member hw hk hw' hu h hu' ih =>
    exact ((passedOver_ws hw).append ((passedOver_string hk).append (passedOver_ws hw'))).append
      (hcolon.append ((passedOver_ws hu).append (ih.append (passedOver_ws hu'))))
  | members h h' ih ih' => exact ih.append (hcomma.append ih')

theorem container_cases {l : List Char} (h : Container l) :
    ∃ o c body, (o, c) ∈ [('{', '}'), ('[', ']')] ∧ PassedOver body ∧ l = o :: (body ++ [c]) := by
  obtain ⟨hvalue, hhead⟩ := h
  cases hvalue with
  | null => simp at hhead
  | true => simp at hhead
  | false => simp at hhead
  | number h =>
    obtain ⟨d, cs, rfl, hd⟩ := h.head
    have hd' : d = '{' ∨ d = '[' := by simpa using hhead
    rcases hd with rfl | hd
    · rcases hd' with h | h <;> cases h
    · rcases hd' with rfl | rfl <;> cases hd
  | string h =>
    obtain ⟨cs, -, rfl⟩ := h
    simp at hhead
  | emptyObject hw => exact ⟨'{', '}', _, by simp, passedOver_ws hw, rfl⟩
  | object h => exact ⟨'{', '}', _, by simp, passedOver_derives h, rfl⟩
  | emptyArray hw => exact ⟨'[', ']', _, by simp, passedOver_ws hw, rfl⟩
  | array h => exact ⟨'[', ']', _, by simp, passedOver_derives h, rfl⟩

/-- **The scan of an object or an array ends at its last bracket**, whatever follows. -/
theorem findJsonSegmentEnd_container {l : List Char} (h : Container l) (rest : List Char) :
    findJsonSegmentEnd (l ++ rest) [] false false = some l.length := by
  obtain ⟨o, c, body, ho, hbody, rfl⟩ := container_cases h
  rw [List.cons_append, List.append_assoc, List.singleton_append, findJsonSegmentEnd_bracketed ho hbody]
  simp

theorem trimmed_container {l : List Char} (h : Container l) : Trimmed (String.ofList l) := by
  obtain ⟨o, c, body, ho, -, rfl⟩ := container_cases h
  rw [Trimmed, String.toList_ofList]
  refine ⟨fun a ha => ?_, fun a ha => ?_⟩
  · obtain rfl : o = a := by simpa using ha
    fin_cases ho <;> rfl
  · rw [← List.cons_append, List.getLast?_append] at ha
    obtain rfl : c = a := by simpa using ha
    fin_cases ho <;> rfl

/-! ## The first value of a text -/

/-- An object or an array that the parser accepts begins at the position. -/
def SerdeJson.ValueAt (json : SerdeJson) (text : List Char) (start : Nat) (value : List Char) : Prop :=
  value <+: text.drop start ∧ Container value ∧ (json.fromStr (String.ofList value)).isOk

/-- The value begins at the earliest position where one begins, and is the only one there. -/
def SerdeJson.FirstValue (json : SerdeJson) (text value : List Char) : Prop :=
  ∃ start, json.ValueAt text start value ∧
    ∀ k other, json.ValueAt text k other → start < k ∨ k = start ∧ other = value

section FirstValue

variable {json : SerdeJson} {c : Char} {cs value other : List Char}

theorem valueAt_unique {text : List Char} {start : Nat} (h : json.ValueAt text start value)
    (h' : json.ValueAt text start other) : other = value := by
  obtain ⟨⟨rest, hrest⟩, hvalue, -⟩ := h
  obtain ⟨⟨rest', hrest'⟩, hother, -⟩ := h'
  have hlen : some other.length = some value.length := by
    rw [← findJsonSegmentEnd_container hother rest', ← findJsonSegmentEnd_container hvalue rest, hrest, hrest']
  refine List.append_inj_left (hrest'.trans hrest.symm) ?_
  exact Option.some.inj hlen

theorem extract_of_valueAt (h : json.ValueAt (c :: cs) 0 value) :
    extractFirstJsonValueSegment json (c :: cs) = some (String.ofList value) := by
  obtain ⟨⟨rest, hrest⟩, hvalue, hok⟩ := h
  rw [List.drop_zero] at hrest
  have hc : c = '{' ∨ c = '[' := by
    have hhead := hvalue.2
    have hne : value ≠ [] := hvalue.1.ne_nil
    rw [← @List.head?_append_of_ne_nil _ value rest hne, hrest] at hhead
    simpa using hhead
  rw [extractFirstJsonValueSegment, if_pos hc, ← hrest, findJsonSegmentEnd_container hvalue rest]
  simp only [List.take_left, trim_of_trimmed (trimmed_container hvalue), hok, if_true]

theorem trim_cons (hc : isWhitespace c = false) : ∃ l, (trim (String.ofList (c :: cs))).toList = c :: l ∧ l <+: cs := by
  have hfirst : (c :: cs).dropWhile isWhitespace = c :: cs := by
    rw [List.dropWhile_cons_of_neg (by simp [hc])]
  rw [trim, String.toList_ofList, String.toList_ofList, hfirst]
  have hpre : ((c :: cs).reverse.dropWhile isWhitespace).reverse <+: c :: cs := by
    rw [← List.reverse_suffix, List.reverse_reverse]
    exact List.dropWhile_suffix _
  have hne : ((c :: cs).reverse.dropWhile isWhitespace).reverse ≠ [] := by
    rw [ne_eq, List.reverse_eq_nil_iff, List.dropWhile_eq_nil_iff]
    intro hall
    rw [hall c (by simp)] at hc
    cases hc
  obtain ⟨a, l, hl⟩ := List.exists_cons_of_ne_nil hne
  rw [hl] at hpre ⊢
  obtain ⟨rfl, htail⟩ := List.cons_prefix_cons.mp hpre
  exact ⟨l, rfl, htail⟩

theorem container_of_accepted (hrfc : ∀ t : String, (json.fromStr t).isOk → Text t.toList) {t : String}
    (hok : (json.fromStr t).isOk) (hhead : t.toList.head? ∈ [some '{', some '[']) (htrim : Trimmed t) :
    Container t.toList := by
  obtain ⟨v, w, hv, hw, hvw⟩ := text_of_bracket (hrfc t hok) hhead
  rcases List.eq_nil_or_concat w with rfl | ⟨w, b, rfl⟩
  · rwa [hvw, List.append_nil]
  · have hb := htrim.2 b (by rw [hvw, List.concat_eq_append, ← List.append_assoc, List.getLast?_concat]; rfl)
    have hws := hw b (by simp)
    simp only [isWs, Bool.or_eq_true, decide_eq_true_eq] at hws
    rcases hws with ((rfl | rfl) | rfl) | rfl <;> cases hb

theorem valueAt_candidate (hrfc : ∀ t : String, (json.fromStr t).isOk → Text t.toList) (hc : c = '{' ∨ c = '[') {n : Nat}
    (hok : (json.fromStr (trim (String.ofList ((c :: cs).take n)))).isOk) : ∃ value, json.ValueAt (c :: cs) 0 value := by
  have hwhite : isWhitespace c = false := by rcases hc with rfl | rfl <;> rfl
  cases n with
  | zero =>
    obtain ⟨w, v, w', -, hv, -, hnil⟩ := hrfc _ hok
    have hv' : v = [] := (List.append_eq_nil_iff.mp (List.append_eq_nil_iff.mp hnil.symm).2).1
    exact absurd hv' hv.ne_nil
  | succ n =>
    rw [List.take_succ_cons] at hok
    obtain ⟨l, hl, hpre⟩ := @trim_cons _ (cs.take n) hwhite
    have hcontainer := container_of_accepted hrfc hok (by rw [hl]; simpa using hc) (trimmed_trim _)
    rw [hl] at hcontainer
    rw [← String.ofList_toList (s := trim _), hl] at hok
    exact ⟨c :: l, List.cons_prefix_cons.mpr ⟨rfl, hpre.trans (List.take_prefix n cs)⟩, hcontainer, hok⟩

theorem extract_of_not_valueAt (hrfc : ∀ t : String, (json.fromStr t).isOk → Text t.toList)
    (h : ∀ value, ¬ json.ValueAt (c :: cs) 0 value) :
    extractFirstJsonValueSegment json (c :: cs) = extractFirstJsonValueSegment json cs := by
  rw [extractFirstJsonValueSegment]
  split_ifs with hc
  · cases findJsonSegmentEnd (c :: cs) [] false false with
    | none => rfl
    | some n =>
      have hbad : ¬ (json.fromStr (trim (String.ofList ((c :: cs).take n)))).isOk := by
        intro hok
        obtain ⟨value, hvalue⟩ := valueAt_candidate hrfc hc hok
        exact h value hvalue
      exact if_neg hbad
  · rfl

theorem valueAt_cons {start : Nat} : json.ValueAt (c :: cs) (start + 1) value ↔ json.ValueAt cs start value := Iff.rfl

/-- **The first value is found**, and nothing where there is none. -/
theorem extractFirst_spec (hrfc : ∀ t : String, (json.fromStr t).isOk → Text t.toList) (text : List Char) :
    (∀ v, extractFirstJsonValueSegment json text = some v → json.FirstValue text v.toList) ∧
      (extractFirstJsonValueSegment json text = none → ∀ start value, ¬ json.ValueAt text start value) := by
  induction text with
  | nil =>
    refine ⟨fun v hv => (by cases hv), fun _ start value h => ?_⟩
    exact h.2.1.1.ne_nil (List.prefix_nil.mp (by simpa using h.1))
  | cons c cs ih =>
    by_cases hhere : ∃ value, json.ValueAt (c :: cs) 0 value
    · obtain ⟨value, hvalue⟩ := hhere
      rw [extract_of_valueAt hvalue]
      refine ⟨fun v hv => ?_, fun h => (by cases h)⟩
      obtain rfl := Option.some.inj hv
      rw [String.toList_ofList]
      refine ⟨0, hvalue, fun k other hother => ?_⟩
      cases k with
      | zero => exact Or.inr ⟨rfl, valueAt_unique hvalue hother⟩
      | succ k => exact Or.inl (Nat.succ_pos k)
    · have hnone : ∀ value, ¬ json.ValueAt (c :: cs) 0 value := fun value hvalue => hhere ⟨value, hvalue⟩
      rw [extract_of_not_valueAt hrfc hnone]
      refine ⟨fun v hv => ?_, fun h start value hvalue => ?_⟩
      · obtain ⟨start, hstart, hfirst⟩ := ih.1 v hv
        refine ⟨start + 1, valueAt_cons.mpr hstart, fun k other hother => ?_⟩
        cases k with
        | zero => exact absurd hother (hnone other)
        | succ k =>
          exact (hfirst k other (valueAt_cons.mp hother)).imp (by omega) fun h => ⟨by omega, h.2⟩
      · cases start with
        | zero => exact hnone value hvalue
        | succ start => exact ih.2 h start value (valueAt_cons.mp hvalue)

/-! ## The trimmed text -/

theorem trim_split (s : String) : ∃ lead trail : List Char, (∀ b ∈ lead, isWhitespace b) ∧ (∀ b ∈ trail, isWhitespace b) ∧
    s.toList = lead ++ ((trim s).toList ++ trail) := by
  have hlead := List.takeWhile_append_dropWhile (p := isWhitespace) (l := s.toList)
  have htrail := List.takeWhile_append_dropWhile (p := isWhitespace) (l := (s.toList.dropWhile isWhitespace).reverse)
  refine ⟨s.toList.takeWhile isWhitespace, ((s.toList.dropWhile isWhitespace).reverse.takeWhile isWhitespace).reverse,
    fun b hb => List.mem_takeWhile_imp hb, fun b hb => List.mem_takeWhile_imp (List.mem_reverse.mp hb), ?_⟩
  rw [trim, String.toList_ofList, ← List.reverse_append, htrail, List.reverse_reverse, hlead]

/-- Whitespace at the ends of a text holds no value. -/
theorem valueAt_trim {lead trail text : List Char} {start : Nat} (hlead : ∀ b ∈ lead, isWhitespace b)
    (htrail : ∀ b ∈ trail, isWhitespace b) (h : json.ValueAt (lead ++ (text ++ trail)) start value) :
    ∃ k, start = lead.length + k ∧ json.ValueAt text k value := by
  obtain ⟨hpre, hvalue, hok⟩ := h
  obtain ⟨hhead, hlast⟩ := trimmed_container hvalue
  rw [String.toList_ofList] at hhead hlast
  have hne : value ≠ [] := hvalue.1.ne_nil
  have hstart : lead.length ≤ start := by
    by_contra hlt
    rw [List.drop_append_of_le_length (by omega)] at hpre
    obtain ⟨rest, hrest⟩ := hpre
    have hdrop : lead.drop start ≠ [] := by
      rw [ne_eq, List.drop_eq_nil_iff]
      omega
    obtain ⟨b, l, hb⟩ := List.exists_cons_of_ne_nil hdrop
    have hb' : b ∈ value.head? := by
      rw [← @List.head?_append_of_ne_nil _ value rest hne, hrest, hb]
      rfl
    have hmem : b ∈ lead := List.mem_of_mem_drop (by rw [hb]; exact List.mem_cons_self)
    exact Bool.noConfusion ((hhead b hb').symm.trans (hlead b hmem))
  refine ⟨start - lead.length, by omega, ?_, hvalue, hok⟩
  rw [List.drop_append, List.drop_eq_nil_of_le hstart, List.nil_append, List.drop_append] at hpre
  rcases List.prefix_or_prefix_of_prefix hpre (List.prefix_append _ _) with hin | ⟨rest, hrest⟩
  · exact hin
  · -- The value would reach into the whitespace.
    rw [← hrest, List.prefix_append_right_inj] at hpre
    rcases List.eq_nil_or_concat rest with rfl | ⟨rest, b, rfl⟩
    · rw [← hrest, List.append_nil]
    · have hb := hlast b (by rw [← hrest, List.concat_eq_append, ← List.append_assoc, List.getLast?_concat]; rfl)
      have hmem : b ∈ trail := List.mem_of_mem_drop (hpre.subset (by simp))
      exact Bool.noConfusion (hb.symm.trans (htrail b hmem))

theorem valueAt_of_trim {lead trail text : List Char} {start : Nat} (h : json.ValueAt text start value) :
    json.ValueAt (lead ++ (text ++ trail)) (lead.length + start) value := by
  refine ⟨?_, h.2⟩
  rw [List.drop_append, List.drop_eq_nil_of_le (by omega), List.nil_append, Nat.add_sub_cancel_left, List.drop_append]
  exact h.1.trans (List.prefix_append _ _)

theorem firstValue_of_trim {lead trail text : List Char} (hlead : ∀ b ∈ lead, isWhitespace b)
    (htrail : ∀ b ∈ trail, isWhitespace b) (h : json.FirstValue text value) :
    json.FirstValue (lead ++ (text ++ trail)) value := by
  obtain ⟨start, hstart, hfirst⟩ := h
  refine ⟨lead.length + start, valueAt_of_trim hstart, fun k other hother => ?_⟩
  obtain ⟨k, rfl, hk⟩ := valueAt_trim hlead htrail hother
  exact (hfirst k other hk).imp (by omega) fun h => ⟨by omega, h.2⟩

end FirstValue

/-! ## The payload -/

/-- **The payload of a reply**: what is found is part of the reply, accepted, and either the whole trimmed reply or an
object or an array; and where the trimmed reply is not JSON, the first object or array in it is found. -/
theorem extractJsonPayload_sound_complete (json : SerdeJson)
    (hrfc : ∀ t : String, (json.fromStr t).isOk → Text t.toList) (text : String) :
    (∀ v, extractJsonPayload json text = some v → v.toList <:+: text.toList ∧ (json.fromStr v).isOk ∧
      (v = trim text ∨ Container v.toList)) ∧
    (¬ (json.fromStr (trim text)).isOk → (∃ start value, json.ValueAt text.toList start value) →
      ∃ v, extractJsonPayload json text = some v ∧ json.FirstValue text.toList v.toList) := by
  obtain ⟨lead, trail, hlead, htrail, hsplit⟩ := trim_split text
  have hinside : (trim text).toList <:+: text.toList := ⟨lead, trail, by rw [hsplit, List.append_assoc]⟩
  obtain ⟨hsome, hnone⟩ := extractFirst_spec hrfc (trim text).toList
  refine ⟨fun v hv => ?_, fun hbad hvalue => ?_⟩
  · rw [extractJsonPayload] at hv
    split_ifs at hv with hempty hok
    · obtain rfl := Option.some.inj hv
      exact ⟨hinside, hok, Or.inl rfl⟩
    · obtain ⟨start, ⟨hpre, hcontainer, hok'⟩, -⟩ := hsome v hv
      rw [String.ofList_toList] at hok'
      exact ⟨(hpre.isInfix.trans (List.drop_suffix _ _).isInfix).trans hinside, hok', Or.inr hcontainer⟩
  · obtain ⟨start, value, hat⟩ := hvalue
    rw [hsplit] at hat
    obtain ⟨k, -, hk⟩ := valueAt_trim hlead htrail hat
    have hfull : (trim text).isEmpty = false := by
      rw [Bool.eq_false_iff, ne_eq, String.isEmpty_iff]
      intro hempty
      rw [hempty] at hk
      exact hk.2.1.1.ne_nil (List.prefix_nil.mp (by simpa using hk.1))
    rw [extractJsonPayload]
    simp only [hfull, hbad, Bool.false_eq_true, if_false]
    cases hextract : extractFirstJsonValueSegment json (trim text).toList with
    | none => exact absurd hk (hnone hextract k value)
    | some v =>
      refine ⟨v, rfl, ?_⟩
      rw [hsplit]
      exact firstValue_of_trim hlead htrail (hsome v hextract)

namespace Sample

/-- A reply with brackets in its prose before the value. -/
def payloadReply : String := "see [x]: \x7b\"a\":1\x7d."

def payloadValue : List Char := ['{', '"', 'a', '"', ':', '1', '}']

/-- What `from_str` accepts of the parts of the reply. -/
def payloadJson : SerdeJson where
  fromStr text := if text = String.ofList payloadValue then .ok (.json [("a", .int 1)]) else .error "expected value"
  toString _ := ""

theorem container_payloadValue : Container payloadValue := by
  have hkey : Str ['"', 'a', '"'] := ⟨['a'], .plain (by decide) .nil, rfl⟩
  have hone : Number ['1'] :=
    ⟨[], ['1'], [], [], by simp, Or.inr ⟨⟨by simp, by simp⟩, by simp⟩, Or.inl rfl, Or.inl rfl, rfl⟩
  have hblank : Ws [] := fun c hc => absurd hc List.not_mem_nil
  exact ⟨.object (.member hblank hkey hblank hblank (.number hone) hblank), by simp [payloadValue]⟩

theorem payloadJson_rfc (t : String) (h : (payloadJson.fromStr t).isOk) : Text t.toList := by
  have ht : t = String.ofList payloadValue := by
    by_contra hne
    simp only [payloadJson, if_neg hne] at h
    cases h
  rw [ht, String.toList_ofList]
  exact ⟨[], payloadValue, [], by simp [Ws], container_payloadValue.1, by simp [Ws], by simp⟩

end Sample

theorem payload_of_reply : (∀ v, extractJsonPayload Sample.payloadJson Sample.payloadReply = some v →
      v.toList <:+: Sample.payloadReply.toList ∧ (Sample.payloadJson.fromStr v).isOk ∧
        (v = trim Sample.payloadReply ∨ Container v.toList)) ∧
    ∃ v, extractJsonPayload Sample.payloadJson Sample.payloadReply = some v ∧
      Sample.payloadJson.FirstValue Sample.payloadReply.toList v.toList := by
  have hat : Sample.payloadJson.ValueAt Sample.payloadReply.toList 9 Sample.payloadValue :=
    ⟨⟨['.'], by decide⟩, Sample.container_payloadValue, by decide⟩
  obtain ⟨hsound, hcomplete⟩ := extractJsonPayload_sound_complete Sample.payloadJson Sample.payloadJson_rfc
    Sample.payloadReply
  exact ⟨hsound, hcomplete (by decide +kernel) ⟨9, Sample.payloadValue, hat⟩⟩

end Xiaomaolv

import Ventilation.Proofs.Quote.Bounds
import Ventilation.Proofs.Quote.Line
import Ventilation.Proofs.Quote.Spelling

/-!
# Product codes read again

A code that was read is shown on its quote line and can be read from there. It is found again if its
model holds no mark, or ends in the filter mark and the very filter with a flag between the two
copies. Any other mark left in the model is taken for one of the code: only one pair, or only the
single flags, are taken out of a text, and only once.
-/

set_option autoImplicit false
set_option relaxedAutoImplicit false

namespace Ventilation

namespace ProductCode

open Text

variable {cs front back model flagged flag : List Char} {withDamper accessory : Bool}

/-! ### What is read can be read -/

theorem takeFlag_cases (flag cs : List Char) :
    ¬ flag <:+: cs ∧ takeFlag flag cs = (cs, false) ∨
      flag <:+: cs ∧ takeFlag flag cs = (trim (removeAll flag cs), true) := by
  by_cases h : flag <:+: cs
  · exact .inr ⟨h, takeFlag_of_isInfix h⟩
  · exact .inl ⟨h, takeFlag_of_not_isInfix h⟩

theorem isTrimmed_takeFlag (h : IsTrimmed cs) : IsTrimmed (takeFlag flag cs).1 := by
  rcases takeFlag_cases flag cs with ⟨-, heq⟩ | ⟨-, heq⟩
  · rwa [heq]
  · rw [heq]
    exact isTrimmed_trim _

theorem isTrimmed_readFlags (h : IsTrimmed flagged) : IsTrimmed (readFlags flagged).1 := by
  by_cases hpair : EndsInPair flagged
  · obtain ⟨front, _, -, -, hread⟩ := exists_readFlags_of_endsInPair hpair
    rw [hread]
    exact isTrimmed_trim front
  · rw [readFlags_of_not_endsInPair hpair]
    exact isTrimmed_takeFlag (isTrimmed_takeFlag h)

/-- Where no flag is found the text is left as it is. -/
theorem eq_of_readFlags_none (h : readFlags flagged = (model, false, false)) :
    model = flagged ∧ ¬ EndsInPair flagged ∧ ¬ damperFlag <:+: flagged ∧
      ¬ screenFlag <:+: flagged := by
  by_cases hpair : EndsInPair flagged
  · obtain ⟨_, _, -, -, hread⟩ := exists_readFlags_of_endsInPair hpair
    exact absurd (congrArg (·.2.1) (hread.symm.trans h)) Bool.false_ne_true.symm
  · rw [readFlags_of_not_endsInPair hpair] at h
    rcases takeFlag_cases screenFlag flagged with ⟨hscreen, heq⟩ | ⟨-, heq⟩
    · rw [heq] at h
      rcases takeFlag_cases damperFlag flagged with ⟨hdamper, heq⟩ | ⟨-, heq⟩
      · rw [heq] at h
        exact ⟨(congrArg Prod.fst h).symm, hpair, hdamper, hscreen⟩
      · rw [heq] at h
        cases h
    · rw [heq] at h
      exact absurd (congrArg (·.2.2) h) Bool.false_ne_true.symm

theorem mem_takeWhile_opening {c : Char} (h : c ∈ cs.takeWhile (· ≠ '(')) : c ≠ '(' := by
  simpa using List.mem_takeWhile_imp h

theorem dropWhile_opening (cs : List Char) :
    cs.dropWhile (· ≠ '(') = [] ∨ ∃ rest, cs.dropWhile (· ≠ '(') = '(' :: rest := by
  have hhead := List.head?_dropWhile_not (· ≠ '(') cs
  cases hdrop : cs.dropWhile (· ≠ '(') with
  | nil => exact .inl rfl
  | cons c rest =>
    rw [hdrop] at hhead
    exact .inr ⟨rest, by rw [of_not_not (of_decide_eq_false hhead)]⟩

/-- What begins with a parenthesis is trimmed if its end is. -/
theorem isTrimmed_dropWhile_opening (h : ∀ c ∈ cs.getLast?, isBlank c = false) :
    IsTrimmed (cs.dropWhile (· ≠ '(')) where
  head := by
    rcases dropWhile_opening cs with hdrop | ⟨rest, hdrop⟩
    · rw [hdrop]
      exact IsTrimmed.nil.head
    · rw [hdrop]
      exact head_of_not_blank rfl rest
  last := by
    rw [← List.takeWhile_append_dropWhile (p := (· ≠ '(')) (l := cs)] at h
    exact last_of_append h

/-- Both parts of a trimmed text are trimmed, and the filter ends before its parenthesis. -/
theorem splitFilter_trimmed (h : IsTrimmed cs) :
    IsTrimmed (splitFilter cs).1 ∧
      ∀ name ∈ (splitFilter cs).2, IsTrimmed name ∧ '(' ∉ name := by
  unfold splitFilter
  split
  · exact ⟨h, nofun⟩
  · next head tail _ =>
    have htail := isTrimmed_trim tail
    refine ⟨(isTrimmed_trim head).append (isTrimmed_dropWhile_opening htail.last), ?_⟩
    have hopening : '(' ∉ (trim tail).takeWhile (· ≠ '(') := fun hmem ↦
      mem_takeWhile_opening hmem rfl
    rintro name ⟨⟩
    split
    · next hnone =>
      refine ⟨?_, hopening⟩
      rw [← List.takeWhile_append_dropWhile (p := (· ≠ '(')) (l := trim tail),
        List.isEmpty_iff.1 hnone, List.append_nil] at htail
      exact htail
    · exact ⟨isTrimmed_trim _, fun hmem ↦ hopening ((isInfix_trim _).subset hmem)⟩

theorem isReadable_ofText (text : String) : (ofText text).IsReadable := by
  have htext := splitFilter_trimmed (isTrimmed_trim text.toList)
  generalize hsplit : splitFilter (trim text.toList) = split at htext
  obtain ⟨flagged, filter⟩ := split
  obtain ⟨hflagged, hfilter⟩ := htext
  have htrimmed := isTrimmed_readFlags hflagged
  generalize hread : readFlags flagged = read at htrimmed
  obtain ⟨model, withDamper, accessory⟩ := read
  rw [ofText_eq hsplit hread]
  refine ⟨by rwa [String.toList_ofList], ?_, ?_⟩
  · rintro rfl rfl
    obtain ⟨rfl, hpair, -, -⟩ := eq_of_readFlags_none hread
    rwa [String.toList_ofList]
  · intro name hname
    obtain ⟨cs, hcs, rfl⟩ := Option.map_eq_some_iff.1 hname
    obtain ⟨hcs, hne⟩ := Option.filter_eq_some_iff.1 hcs
    obtain ⟨htrimmed, hopening⟩ := hfilter cs hcs
    rw [String.toList_ofList]
    exact ⟨by simpa using hne, htrimmed, hopening⟩

/-! ### Flags in front of a filter -/

section Filter

variable {filter : Option String}

/-- A filter that can be read, if there is one. -/
def IsFilter (filter : Option String) : Prop :=
  ∀ name, filter = some name → IsFilterName name.toList

theorem isFilter_none : IsFilter none := fun _ hname ↦ nomatch hname

theorem isTrimmed_filterText (h : IsFilter filter) : IsTrimmed (filterText filter) := by
  cases filter with
  | none => exact .nil
  | some name => exact isTrimmed_filterMark.append (h name rfl).trimmed

theorem opening_not_mem_filterText (h : IsFilter filter) : '(' ∉ filterText filter := by
  cases filter with
  | none => exact List.not_mem_nil
  | some name =>
    rw [filterText, List.mem_append, not_or]
    exact ⟨by decide, (h name rfl).no_opening⟩

theorem IsFlag.apart_filterText (hflag : IsFlag flag) (filter : Option String) :
    Apart flag (filterText filter) := by
  cases filter with
  | none => exact Apart.nil flag
  | some name =>
    apply Apart.of_head
    rcases hflag with rfl | rfl <;> decide

theorem IsFlag.not_infix_filterText (hflag : IsFlag flag) (h : IsFilter filter) :
    ¬ flag <:+: filterText filter := by
  have hmem : '(' ∈ flag := by rcases hflag with rfl | rfl <;> decide
  exact not_infix_of_not_mem hmem (opening_not_mem_filterText h)

theorem IsFlag.ne_nil (hflag : IsFlag flag) : flag ≠ [] := by
  rcases hflag with rfl | rfl <;> decide

theorem IsFlag.four_le_length (hflag : IsFlag flag) : 4 ≤ flag.length := by
  rcases hflag with rfl | rfl <;> decide

theorem IsFlag.apart_append (hflag : IsFlag flag) (cs : List Char) : Apart flag (flag ++ cs) := by
  rcases hflag with rfl | rfl <;> exact Apart.of_head (by decide) _

theorem IsFlag.length_removeAll_add_le (hflag : IsFlag flag) (h : flag <:+: cs) :
    (removeAll flag cs).length + 4 ≤ cs.length := by
  have hself := hflag.apart_append []
  rw [List.append_nil] at hself
  have := Text.length_removeAll_add_le hflag.ne_nil hself h
  have := hflag.four_le_length
  omega

theorem length_takeFlag_add_le (hflag : IsFlag flag) {rest : List Char}
    (h : takeFlag flag cs = (rest, true)) : rest.length + 4 ≤ cs.length := by
  rcases takeFlag_cases flag cs with ⟨-, heq⟩ | ⟨hfound, heq⟩
  · rw [heq] at h
    exact absurd (congrArg Prod.snd h) Bool.false_ne_true
  · obtain rfl : trim (removeAll flag cs) = rest := congrArg Prod.fst (heq.symm.trans h)
    have hremoved := hflag.length_removeAll_add_le hfound
    have htrim := (isInfix_trim (removeAll flag cs)).length_le
    omega

/-- One flag is taken out from before a filter, and then it is the only one, or what is left is
shorter than that. -/
theorem takeFlag_filterText (hflag : IsFlag flag) (hfilter : IsFilter filter)
    (hmodel : IsTrimmed model) :
    ∃ rest, takeFlag flag (model ++ (flag ++ filterText filter)) = (rest, true) ∧
      (¬ flag <:+: model ∧ rest = model ++ filterText filter ∨
        rest.length < (model ++ filterText filter).length) := by
  have hback := hflag.not_infix_filterText hfilter
  by_cases h : flag <:+: model
  · refine ⟨_, takeFlag_of_isInfix ⟨model, _, List.append_assoc ..⟩, .inr ?_⟩
    rw [removeAll_append (hflag.apart_append _), removeAll_append (hflag.apart_filterText filter),
      removeAll_self, removeAll_of_not_infix hback, List.nil_append]
    have htrim := (isInfix_trim (removeAll flag model ++ filterText filter)).length_le
    have hremoved := hflag.length_removeAll_add_le h
    rw [List.length_append] at htrim ⊢
    omega
  · refine ⟨_, takeFlag_append hflag h (hflag.apart_filterText filter) hback, .inl ⟨h, ?_⟩⟩
    exact (hmodel.append (isTrimmed_filterText hfilter)).trim_eq

/-- The flags of a code are the only ones of its text. -/
structure IsUndisturbed (model : List Char) (withDamper accessory : Bool)
    (filter : Option String) : Prop where
  no_damperFlag : ¬ damperFlag <:+: model
  no_screenFlag : ¬ screenFlag <:+: model
  not_endsInPair : ¬ EndsInPair (model ++ (flagText withDamper accessory ++ filterText filter))

/-- Single flags that come back are the only ones, or some of the model is gone. -/
theorem readFlags_single (hmodel : IsTrimmed model) (hfilter : IsFilter filter)
    (hflags : withDamper = true ∨ accessory = true)
    (hpair : ¬ EndsInPair (model ++ (flagText withDamper accessory ++ filterText filter)))
    {rest : List Char}
    (h : readFlags (model ++ (flagText withDamper accessory ++ filterText filter)) =
      (rest, withDamper, accessory)) :
    IsUndisturbed model withDamper accessory filter ∧ rest = model ++ filterText filter ∨
      rest.length < (model ++ filterText filter).length := by
  rw [readFlags_of_not_endsInPair hpair] at h
  cases withDamper with
  | false =>
    obtain rfl : accessory = true := hflags.resolve_left Bool.false_ne_true
    obtain ⟨rest', hscreen, hcases⟩ := takeFlag_filterText isFlag_screenFlag hfilter hmodel
    have htext : flagText false true ++ filterText filter = screenFlag ++ filterText filter := rfl
    rw [htext, hscreen] at h
    rcases takeFlag_cases damperFlag rest' with ⟨hdamper, heq⟩ | ⟨-, heq⟩
    · rw [heq] at h
      obtain rfl : rest' = rest := congrArg Prod.fst h
      rcases hcases with ⟨hnone, rfl⟩ | hlt
      · refine .inl ⟨⟨fun hfound ↦ hdamper ?_, hnone, hpair⟩, rfl⟩
        exact hfound.trans (List.prefix_append _ _).isInfix
      · exact .inr hlt
    · rw [heq] at h
      exact absurd (congrArg (·.2.1) h) Bool.false_ne_true.symm
  | true =>
    cases accessory with
    | false =>
      have htext : flagText true false ++ filterText filter = damperFlag ++ filterText filter := rfl
      rw [htext] at h
      rcases takeFlag_cases screenFlag (model ++ (damperFlag ++ filterText filter)) with
        ⟨hscreen, heq⟩ | ⟨-, heq⟩
      · obtain ⟨rest', hdamper, hcases⟩ := takeFlag_filterText isFlag_damperFlag hfilter hmodel
        rw [heq] at h
        simp only at h
        rw [hdamper] at h
        obtain rfl : rest' = rest := congrArg Prod.fst h
        refine hcases.imp (fun hcase ↦ ⟨⟨hcase.1, fun hfound ↦ hscreen ?_, hpair⟩, hcase.2⟩) id
        exact hfound.trans (List.prefix_append _ _).isInfix
      · rw [heq] at h
        exact absurd (congrArg (·.2.2) h) Bool.false_ne_true.symm
    | true =>
      have htext : model ++ (flagText true true ++ filterText filter) =
          (model ++ damperFlag) ++ (screenFlag ++ filterText filter) := by
        simp [flagText]
      obtain ⟨first, hscreen, hcases⟩ := takeFlag_filterText isFlag_screenFlag hfilter
        (hmodel.append isFlag_damperFlag.isTrimmed)
      rw [htext, hscreen] at h
      simp only at h
      rcases hcases with ⟨hnone, rfl⟩ | hlt
      · obtain ⟨rest', hdamper, hcases⟩ := takeFlag_filterText isFlag_damperFlag hfilter hmodel
        rw [List.append_assoc, hdamper] at h
        obtain rfl : rest' = rest := congrArg Prod.fst h
        refine hcases.imp (fun hcase ↦ ⟨⟨hcase.1, fun hfound ↦ hnone ?_, hpair⟩, hcase.2⟩) id
        exact hfound.trans (List.prefix_append _ _).isInfix
      · right
        rw [Prod.mk.injEq, Prod.mk.injEq] at h
        have htake : takeFlag damperFlag first = (rest, true) := Prod.ext h.1 h.2.1
        have hlength := length_takeFlag_add_le isFlag_damperFlag htake
        have hdamper : damperFlag.length = 4 := rfl
        rw [List.length_append, List.length_append] at hlt
        rw [List.length_append]
        omega

/-- A pair behind the flags is one in the filter, and then the flags stay with the model. -/
theorem readFlags_pair (hmodel : IsTrimmed model)
    (hpair : EndsInPair (model ++ (flagText withDamper accessory ++ filterText filter)))
    {rest : List Char}
    (h : readFlags (model ++ (flagText withDamper accessory ++ filterText filter)) =
      (rest, withDamper, accessory)) : model ++ ['('] <+: rest := by
  obtain ⟨before, pair, heq, hpair', hread⟩ := exists_readFlags_of_endsInPair hpair
  rw [hread] at h
  cases h
  cases filter with
  | none =>
    rw [filterText, List.append_nil, flagText, ← List.append_assoc] at hpair
    exact absurd hpair (not_endsInPair_append (by decide) (by decide) _)
  | some name =>
    have hmark : IsTrimmed (model ++ (flagText true true ++ filterMark)) :=
      hmodel.append ((isFlags_flagText true true).isTrimmed.append isTrimmed_filterMark)
    have htext : model ++ (flagText true true ++ filterText (some name)) =
        (model ++ (flagText true true ++ filterMark)) ++ name.toList := by
      simp [filterText]
    have hsuffix :
        pair <:+ (model ++ (flagText true true ++ ['+', 'F'])) ++ '.' :: name.toList := by
      refine ⟨before, heq.symm.trans (htext.trans ?_)⟩
      simp [filterMark]
    obtain ⟨front, hname⟩ := hpair'.suffix_of_append hsuffix
    rw [htext, ← hname, ← List.append_assoc] at heq
    have hne : model ++ (flagText true true ++ filterMark) ≠ [] := by simp [filterMark]
    have htrim := trim_append_append hmark hne [] front
    rw [List.nil_append] at htrim
    rw [← List.append_cancel_right heq, htrim]
    exact ⟨'W' :: 'D' :: ')' :: (screenFlag ++ filterMark ++ trimEnd front), by
      simp [flagText, damperFlag, trimStart]⟩

/-- The flags that come back are the only ones, or some of the model is gone, or they are now in
it. -/
theorem readFlags_again (hmodel : IsTrimmed model) (hfilter : IsFilter filter)
    (hflags : withDamper = true ∨ accessory = true) {rest : List Char}
    (h : readFlags (model ++ (flagText withDamper accessory ++ filterText filter)) =
      (rest, withDamper, accessory)) :
    IsUndisturbed model withDamper accessory filter ∧ rest = model ++ filterText filter ∨
      rest.length < (model ++ filterText filter).length ∨ model ++ ['('] <+: rest := by
  by_cases hpair : EndsInPair (model ++ (flagText withDamper accessory ++ filterText filter))
  · exact .inr (.inr (readFlags_pair hmodel hpair h))
  · exact (readFlags_single hmodel hfilter hflags hpair h).imp_right .inl

theorem IsFlag.not_infix_append_filterText (hflag : IsFlag flag) (hfilter : IsFilter filter)
    (h : ¬ flag <:+: cs) : ¬ flag <:+: cs ++ filterText filter := by
  rw [infix_append_iff (hflag.apart_filterText filter), not_or]
  exact ⟨h, hflag.not_infix_filterText hfilter⟩

/-- Flags that are the only ones are read as they are. -/
theorem IsUndisturbed.readFlags_eq (h : IsUndisturbed model withDamper accessory filter)
    (hmodel : IsTrimmed model) (hfilter : IsFilter filter) :
    readFlags (model ++ (flagText withDamper accessory ++ filterText filter)) =
      (model ++ filterText filter, withDamper, accessory) := by
  have htrim : trim (model ++ filterText filter) = model ++ filterText filter :=
    (hmodel.append (isTrimmed_filterText hfilter)).trim_eq
  have hno_damper := isFlag_damperFlag.not_infix_append_filterText hfilter h.no_damperFlag
  have hno_screen := isFlag_screenFlag.not_infix_append_filterText hfilter h.no_screenFlag
  have hdamper : takeFlag damperFlag (model ++ (damperFlag ++ filterText filter)) =
      (model ++ filterText filter, true) := by
    rw [takeFlag_append isFlag_damperFlag h.no_damperFlag
      (isFlag_damperFlag.apart_filterText filter)
      (isFlag_damperFlag.not_infix_filterText hfilter), htrim]
  have hno_screen' : ¬ screenFlag <:+: model ++ damperFlag := by
    rw [infix_append_iff (isFlag_screenFlag.apart rfl), not_or]
    exact ⟨h.no_screenFlag, by decide⟩
  rw [readFlags_of_not_endsInPair h.not_endsInPair]
  unfold flagText
  cases withDamper <;> cases accessory <;>
    simp only [Bool.false_eq_true, if_false, if_true, List.nil_append, List.append_nil]
  · rw [takeFlag_of_not_isInfix hno_screen, takeFlag_of_not_isInfix hno_damper]
  · rw [takeFlag_append isFlag_screenFlag h.no_screenFlag
      (isFlag_screenFlag.apart_filterText filter)
      (isFlag_screenFlag.not_infix_filterText hfilter), htrim, takeFlag_of_not_isInfix hno_damper]
  · have hnone := isFlag_screenFlag.not_infix_append_filterText hfilter hno_screen'
    rw [List.append_assoc] at hnone
    rw [takeFlag_of_not_isInfix hnone, hdamper]
  · have htrim' : trim ((model ++ damperFlag) ++ filterText filter) =
        model ++ (damperFlag ++ filterText filter) := by
      have htrimmed := (hmodel.append isFlag_damperFlag.isTrimmed).append
        (isTrimmed_filterText hfilter)
      rw [htrimmed.trim_eq, List.append_assoc]
    rw [List.append_assoc, ← List.append_assoc model, takeFlag_append isFlag_screenFlag hno_screen'
      (isFlag_screenFlag.apart_filterText filter)
      (isFlag_screenFlag.not_infix_filterText hfilter), htrim', hdamper]

end Filter

/-! ### Codes that are read again -/

section Again

variable {code : ProductCode}

/-- The model ends in a copy of the filter with its mark, and a flag of the code follows. -/
structure RepeatsFilter (code : ProductCode) (front : List Char) (name : String) : Prop where
  filter_eq : code.filter = some name
  model_eq : code.model.toList = front ++ (filterMark ++ name.toList)
  hasFlag : code.withDamper = true ∨ code.accessory = true
  trimmed : IsTrimmed front
  clean : IsClean front
  not_endsInPair : ¬ EndsInPair name.toList

theorem isTrimmed_text (h : code.IsReadable) : IsTrimmed code.text.toList := by
  rw [toList_text]
  exact h.trimmed.append
    ((isFlags_flagText _ _).isTrimmed.append (isTrimmed_filterText h.filterName))

/-- What a code was read from. -/
theorem readFlags_of_ofText_eq {text : String} {filter : Option (List Char)}
    (hsplit : splitFilter (trim text.toList) = (flagged, filter)) (h : ofText text = code) :
    readFlags flagged = (code.model.toList, code.withDamper, code.accessory) ∧
      code.filter = (filter.filter fun name ↦ !name.isEmpty).map String.ofList := by
  generalize hread : readFlags flagged = read
  obtain ⟨model, withDamper, accessory⟩ := read
  rw [ofText_eq hsplit hread] at h
  rw [← h, String.toList_ofList]
  exact ⟨rfl, rfl⟩

/-- Without a filter mark in the model its flags are read from behind it. -/
theorem exists_splitFilter_text (h : code.IsReadable)
    (hmark : ¬ filterMark <:+: code.model.toList) :
    ∃ filter, splitFilter (trim code.text.toList) =
      (code.model.toList ++ flagText code.withDamper code.accessory, filter) := by
  have hflags := isFlags_flagText code.withDamper code.accessory
  have hnone := not_filterMark_infix hmark (List.forall_mem_nil _) hflags (List.forall_mem_nil _)
  rw [List.nil_append, List.append_nil] at hnone
  have htrimmed := h.trimmed.append hflags.isTrimmed
  cases hfilter : code.filter with
  | none =>
    refine ⟨none, ?_⟩
    rw [(isTrimmed_text h).trim_eq, toList_text, hfilter, filterText, List.append_nil]
    exact splitFilter_of_not_infix hnone
  | some name =>
    refine ⟨some name.toList, ?_⟩
    have hsplit := splitFilter_name (fun hfound ↦ hnone (hfound.trans (trimStart_suffix _).isInfix))
      (h.filterName name hfilter) (List.forall_mem_nil _)
    rw [List.append_nil, htrimmed.trim_eq] at hsplit
    rw [toList_text, hfilter, filterText, ← List.append_assoc]
    exact hsplit

/-- A model without a filter mark that is read again has no mark of a flag either. -/
theorem isClean_of_ofText_text (h : code.IsReadable) (hagain : ofText code.text = code)
    (hmark : ¬ filterMark <:+: code.model.toList) : IsClean code.model.toList := by
  obtain ⟨filter, hsplit⟩ := exists_splitFilter_text h hmark
  have hread := (readFlags_of_ofText_eq hsplit hagain).1
  by_cases hflags : code.withDamper = true ∨ code.accessory = true
  · have hnil : filterText none = [] := rfl
    rw [← List.append_nil (flagText _ _), ← hnil] at hread
    rcases readFlags_again h.trimmed isFilter_none hflags hread with
      ⟨hundisturbed, -⟩ | hlt | hprefix
    · exact ⟨hmark, hundisturbed.no_damperFlag, hundisturbed.no_screenFlag⟩
    · rw [hnil, List.append_nil] at hlt
      exact absurd hlt (Nat.lt_irrefl _)
    · have hlength := hprefix.length_le
      rw [List.length_append, List.length_singleton] at hlength
      omega
  · rw [not_or, Bool.not_eq_true, Bool.not_eq_true] at hflags
    rw [hflags.1, hflags.2] at hread
    obtain ⟨heq, -, hdamper, hscreen⟩ := eq_of_readFlags_none hread
    rw [← heq] at hdamper hscreen
    exact ⟨hmark, hdamper, hscreen⟩

/-- No parenthesis follows where blanks or the filter mark do. -/
theorem head_ne_opening {blanks : List Char} (hblanks : IsBlanks blanks) (cs rest : List Char) :
    blanks ++ (filterMark ++ cs) ≠ '(' :: rest := by
  intro heq
  cases blanks with
  | nil => cases heq
  | cons c blanks =>
    obtain rfl : c = '(' := (List.cons.inj heq).1
    exact Bool.false_ne_true (hblanks '(' List.mem_cons_self)

theorem exists_trim_front (hstart : trimStart front = front) :
    ∃ blanks, IsBlanks blanks ∧ front = trim front ++ blanks := by
  obtain ⟨blanks, hblanks, hends⟩ := exists_trimEnd front
  have htrim : trim front = trimEnd front := congrArg trimEnd hstart
  exact ⟨blanks, hblanks, by rw [htrim, ← hends]⟩

/-- Without a flag the text behind the filter mark is lost. -/
theorem hasFlag_of_ofText_text (hagain : ofText code.text = code)
    (hmodel : code.model.toList = front ++ (filterMark ++ back)) (hfront : ¬ filterMark <:+: front)
    (hstart : trimStart front = front) : code.withDamper = true ∨ code.accessory = true := by
  by_contra hflags
  rw [not_or, Bool.not_eq_true, Bool.not_eq_true] at hflags
  obtain ⟨tail, htext⟩ : ∃ tail, code.text.toList = front ++ (filterMark ++ tail) :=
    ⟨_, by rw [toList_text, hmodel, List.append_assoc, List.append_assoc]⟩
  have hsplit := splitFilter_mark (hstart.symm ▸ hfront) tail
  rw [← htext] at hsplit
  have hread := (readFlags_of_ofText_eq hsplit hagain).1
  rw [hflags.1, hflags.2] at hread
  obtain ⟨blanks, hblanks, hends⟩ := exists_trim_front hstart
  have hmodel' : code.model.toList = trim front ++ (blanks ++ (filterMark ++ back)) := by
    rw [hmodel, ← List.append_assoc (trim front), ← hends]
  have hrest := List.append_cancel_left (hmodel'.symm.trans (eq_of_readFlags_none hread).1)
  rcases dropWhile_opening (trim tail) with hdrop | ⟨rest, hdrop⟩
  · rw [hdrop] at hrest
    exact absurd (congrArg List.length hrest) (by simp [filterMark])
  · exact head_ne_opening hblanks back rest (hrest.trans hdrop)

theorem EndsInPair.append (h : EndsInPair cs) (front : List Char) : EndsInPair (front ++ cs) := by
  obtain ⟨pair, hsuffix, hpair⟩ := h
  exact ⟨pair, hsuffix.trans (List.suffix_append front cs), hpair⟩

theorem flagText_eq_cons (h : withDamper = true ∨ accessory = true) :
    ∃ inner, flagText withDamper accessory = '(' :: inner := by
  cases withDamper <;> cases accessory
  · simp at h
  · exact ⟨_, rfl⟩
  · exact ⟨_, rfl⟩
  · exact ⟨_, rfl⟩

/-- The text behind the filter mark is cut at its first parenthesis, which is one of the model or
the one of the flags. -/
theorem exists_cut (h : code.IsReadable)
    (hmodel : code.model.toList = front ++ (filterMark ++ back)) (hfront : ¬ filterMark <:+: front)
    (hstart : trimStart front = front)
    (hflags : code.withDamper = true ∨ code.accessory = true) :
    ∃ name kept, back = name ++ kept ∧ IsTrimmed kept ∧ (kept = [] ∨ ∃ rest, kept = '(' :: rest) ∧
      splitFilter (trim code.text.toList) = ((trim front ++ kept) ++
        (flagText code.withDamper code.accessory ++ filterText code.filter), some (trim name)) := by
  have hkept : IsTrimmed (back.dropWhile (· ≠ '(')) := by
    have hlast := h.trimmed.last
    rw [hmodel] at hlast
    exact isTrimmed_dropWhile_opening (last_of_append (last_of_append hlast))
  refine ⟨back.takeWhile (· ≠ '('), back.dropWhile (· ≠ '('),
    List.takeWhile_append_dropWhile.symm, hkept, dropWhile_opening back, ?_⟩
  obtain ⟨flags, hflagText⟩ := flagText_eq_cons hflags
  have htail := hkept.append ((isFlags_flagText code.withDamper code.accessory).isTrimmed.append
    (isTrimmed_filterText h.filterName))
  obtain ⟨inner, hinner⟩ : ∃ inner, back.dropWhile (· ≠ '(') ++
      (flagText code.withDamper code.accessory ++ filterText code.filter) = '(' :: inner := by
    rcases dropWhile_opening back with hdrop | ⟨rest, hdrop⟩
    · exact ⟨_, by rw [hdrop, hflagText]; rfl⟩
    · exact ⟨_, by rw [hdrop]; rfl⟩
  have hsplit := splitFilter_opening (hstart.symm ▸ hfront)
    (fun hmem : '(' ∈ back.takeWhile (· ≠ '(') ↦ mem_takeWhile_opening hmem rfl)
    (hinner ▸ htail) (List.forall_mem_nil _)
  rw [← hinner, List.append_nil] at hsplit
  have htext : code.text.toList = front ++ (filterMark ++ (back.takeWhile (· ≠ '(') ++
      (back.dropWhile (· ≠ '(') ++
        (flagText code.withDamper code.accessory ++ filterText code.filter)))) := by
    rw [toList_text, hmodel, ← List.append_assoc (List.takeWhile _ _),
      List.takeWhile_append_dropWhile]
    simp only [List.append_assoc]
  rw [htext, hsplit, List.append_assoc]

theorem toList_filter {name : List Char} {given : String}
    (h : code.filter = ((some name).filter fun name ↦ !name.isEmpty).map String.ofList)
    (hgiven : code.filter = some given) : given.toList = name := by
  obtain ⟨cs, hcs, rfl⟩ := Option.map_eq_some_iff.1 (h.symm.trans hgiven)
  rw [String.toList_ofList, Option.some.inj (Option.eq_some_of_filter_eq_some hcs)]

theorem length_filterText_le {name : List Char}
    (h : code.filter = ((some name).filter fun name ↦ !name.isEmpty).map String.ofList) :
    (filterText code.filter).length ≤ name.length + 3 := by
  cases hgiven : code.filter with
  | none => exact Nat.zero_le _
  | some given =>
    rw [filterText, toList_filter h hgiven, List.length_append, Nat.add_comm]
    exact le_rfl

/-- A model with a filter mark that is read again repeats the filter of its code. -/
theorem exists_repeatsFilter (h : code.IsReadable) (hagain : ofText code.text = code)
    (hmark : filterMark <:+: code.model.toList) :
    ∃ front name, code.RepeatsFilter front name := by
  obtain ⟨⟨front, back⟩, hsplit⟩ := Option.isSome_iff_exists.1 (occurs_iff.2 hmark)
  have hmodel := eq_append_of_splitOnce hsplit
  have hfront := not_infix_of_splitOnce (by decide) hsplit
  have hstart : trimStart front = front :=
    trimStart_of_head (head_of_append (hmodel ▸ h.trimmed.head))
  have hflags := hasFlag_of_ofText_text hagain hmodel hfront hstart
  obtain ⟨name, kept, rfl, hkept, hopening, hcut⟩ := exists_cut h hmodel hfront hstart hflags
  obtain ⟨hread, hfilter⟩ := readFlags_of_ofText_eq hcut hagain
  obtain ⟨blanks, hblanks, hends⟩ := exists_trim_front hstart
  have hmodel' : code.model.toList = trim front ++ (blanks ++ (filterMark ++ (name ++ kept))) := by
    rw [hmodel, ← List.append_assoc (trim front), ← hends]
  rcases readFlags_again ((isTrimmed_trim front).append hkept) h.filterName hflags hread with
    ⟨hundisturbed, heq⟩ | hlt | ⟨rest, hprefix⟩
  · rw [List.append_assoc] at heq
    have hrest := List.append_cancel_left (hmodel'.symm.trans heq)
    obtain rfl : kept = [] := by
      rcases hopening with hnil | ⟨rest, rfl⟩
      · exact hnil
      · exact absurd hrest (head_ne_opening hblanks _ _)
    rw [List.append_nil, List.nil_append] at hrest
    cases hgiven : code.filter with
    | none =>
      rw [hgiven] at hrest
      exact absurd (congrArg List.length hrest) (by simp [filterMark, filterText])
    | some given =>
      rw [hgiven, filterText] at hrest
      -- what was read as the filter began with its mark, so no blanks stood before it
      obtain rfl : blanks = [] := by
        cases blanks with
        | nil => rfl
        | cons c blanks =>
          obtain rfl : c = '+' := (List.cons.inj hrest).1
          exact absurd (hblanks '+' List.mem_cons_self) Bool.false_ne_true
      rw [List.append_nil] at hends
      have hname : name = given.toList := List.append_cancel_left hrest
      rw [List.append_nil, ← hends] at hundisturbed
      refine ⟨front, given, hgiven, ?_, hflags, hends ▸ isTrimmed_trim front,
        ⟨hfront, hundisturbed.no_damperFlag, hundisturbed.no_screenFlag⟩, fun hpair ↦ ?_⟩
      · rw [hmodel, List.append_nil, hname]
      · have hends_pair := hundisturbed.not_endsInPair
        rw [hgiven, filterText] at hends_pair
        exact hends_pair (((hpair.append _).append _).append _)
  · have hfilter_le := length_filterText_le hfilter
    have hname := (isInfix_trim name).length_le
    have hfront_le := (isInfix_trim front).length_le
    have hmark : filterMark.length = 3 := rfl
    rw [hmodel] at hlt
    simp only [List.length_append] at hlt
    omega
  · rw [hmodel', List.append_assoc, List.append_assoc] at hprefix
    have hrest := List.append_cancel_left hprefix
    rcases hopening with rfl | ⟨rest', rfl⟩
    · exact absurd hrest.symm (head_ne_opening hblanks _ _)
    · exact absurd hrest.symm (head_ne_opening hblanks _ _)

/-- A code that repeats its filter is found again: the copy in the model is taken for its filter,
and the filter goes to the model. -/
theorem RepeatsFilter.ofText_text {name : String} (hrepeats : code.RepeatsFilter front name)
    (h : code.IsReadable) : ofText code.text = code := by
  have hname := h.filterName name hrepeats.filter_eq
  have hstart : trimStart front = front := trimStart_of_head hrepeats.trimmed.head
  obtain ⟨name', kept, hback, -, hopening, hcut⟩ :=
    exists_cut h hrepeats.model_eq hrepeats.clean.no_filterMark hstart hrepeats.hasFlag
  obtain rfl : kept = [] := by
    rcases hopening with hnil | ⟨rest, rfl⟩
    · exact hnil
    · exact absurd (hback ▸ List.mem_append_right name' List.mem_cons_self) hname.no_opening
  rw [List.append_nil] at hback hcut
  rw [← hback, hname.trimmed.trim_eq, hrepeats.trimmed.trim_eq] at hcut
  have hundisturbed : IsUndisturbed front code.withDamper code.accessory code.filter := by
    refine ⟨hrepeats.clean.no_damperFlag, hrepeats.clean.no_screenFlag, fun hpair ↦ ?_⟩
    rw [hrepeats.filter_eq, filterText] at hpair
    have htext : front ++ (flagText code.withDamper code.accessory ++ (filterMark ++ name.toList)) =
        (front ++ (flagText code.withDamper code.accessory ++ ['+', 'F'])) ++
          '.' :: name.toList := by
      simp [filterMark]
    exact hrepeats.not_endsInPair (htext ▸ hpair).of_append
  have hread := hundisturbed.readFlags_eq hrepeats.trimmed h.filterName
  refine ofText_eq_of_isReadable h (hcut.trans ?_) (hread.trans ?_)
  · rw [hrepeats.filter_eq, Option.map_some]
  · rw [hrepeats.model_eq, hrepeats.filter_eq, filterText]

end Again

/-- The code that a quote line shows is the text of the ordered one. It is read as the ordered code
again exactly if no mark was left in its model, or if the model ends in the filter mark and the very
filter of the code, with a flag of the code behind it. -/
theorem ofText_text_iff (text : String) :
    (∀ (e : Engine) r item, r.code = ofText text → e.quote r = .ok item →
      item.productCode = (ofText text).text) ∧
    (ofText (ofText text).text = ofText text ↔ IsClean (ofText text).model.toList ∨
      ∃ front name, (ofText text).RepeatsFilter front name) := by
  have h := isReadable_ofText text
  refine ⟨fun e r item hcode hitem ↦ ?_, fun hagain ↦ ?_, ?_⟩
  · rw [Engine.productCode_of_quote hitem, hcode]
  · by_cases hmark : filterMark <:+: (ofText text).model.toList
    · exact .inr (exists_repeatsFilter h hagain hmark)
    · exact .inl (isClean_of_ofText_text h hagain hmark)
  · rintro (hclean | ⟨front, name, hrepeats⟩)
    · exact ofText_eq_of_spells h hclean (ofText text).spells_text
    · exact hrepeats.ofText_text h

/-- A copy of the filter in the model, and a quote line that shows the code it was ordered by. -/
theorem ofText_text_iff_repeated :
    (∃ item, Engine.wide.quote
        { Engine.wideRequest false 1 ⟨0, 0⟩ 10 with code := ofText "R(INS)" } = .ok item ∧
        item.productCode = "R(INS)") ∧
      (ofText "A+F.N(WD)+F.N").text = "A+F.N(WD)+F.N" ∧
      ∃ front name, (ofText "A+F.N(WD)+F.N").RepeatsFilter front name := by
  have htext : (ofText "A+F.N(WD)+F.N").text = "A+F.N(WD)+F.N" := by decide +kernel
  refine ⟨?_, htext, ?_⟩
  · obtain ⟨item, hitem, -⟩ := Option.map_eq_some_iff.1 (show
      (Engine.wide.quote { Engine.wideRequest false 1 ⟨0, 0⟩ 10 with
        code := ofText "R(INS)" }).toOption.map QuoteItem.unitPrice = some ⟨550, 0⟩ by
          decide +kernel)
    have hquote := eq_ok_of_toOption hitem
    have hshown := (ofText_text_iff "R(INS)").1 _ _ item rfl hquote
    exact ⟨item, hquote, hshown.trans (by decide +kernel)⟩
  · have hagain : ofText (ofText "A+F.N(WD)+F.N").text = ofText "A+F.N(WD)+F.N" := by rw [htext]
    refine ((ofText_text_iff "A+F.N(WD)+F.N").2.1 hagain).resolve_left fun hclean ↦ ?_
    exact hclean.no_filterMark (by decide +kernel)

/-- After a pair no single flag is looked for, so that the model keeps its own one. Shown with the
flags of the code, both are read as one, and the model is another. -/
theorem ofText_text_left_flag :
    ofText "ABC(WD)(WD,INS)" = ⟨"ABC(WD)", true, true, none⟩ ∧
      (ofText "ABC(WD)(WD,INS)").text = "ABC(WD)(WD)(INS)" ∧
      ofText "ABC(WD)(WD)(INS)" = ⟨"ABC", true, true, none⟩ ∧
      ofText (ofText "ABC(WD)(WD,INS)").text ≠ ofText "ABC(WD)(WD,INS)" := by
  decide +kernel

end ProductCode

end Ventilation

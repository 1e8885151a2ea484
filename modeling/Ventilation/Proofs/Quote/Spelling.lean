import Ventilation.Proofs.Quote.FlagPair
import Ventilation.Proofs.Text.Search

/-!
# Spellings of a product code

A product code may be written with its flags before or after the filter, one by one or as a pair,
and with blanks around each part. Every spelling of a code is read as that code, if the model holds
no mark of a filter or a flag itself and the filter has no parenthesis. The text that a quote line
shows is one of the spellings.
-/

set_option autoImplicit false
set_option relaxedAutoImplicit false

namespace Ventilation.ProductCode

open Text

variable {cs front back blanks model rest flag flags name : List Char} {withDamper accessory : Bool}

/-! ### Spellings -/

/-- A text without a mark of a filter or a flag. -/
structure IsClean (cs : List Char) : Prop where
  no_filterMark : ¬ filterMark <:+: cs
  no_damperFlag : ¬ damperFlag <:+: cs
  no_screenFlag : ¬ screenFlag <:+: cs

structure IsFilterName (name : List Char) : Prop where
  ne_nil : name ≠ []
  trimmed : IsTrimmed name
  no_opening : '(' ∉ name

/-- The model and the filter are what can be read from a text. A model that ends in a pair of flags
has flags of its own behind it. -/
structure IsReadable (code : ProductCode) : Prop where
  trimmed : IsTrimmed code.model.toList
  not_endsInPair : code.withDamper = false → code.accessory = false →
    ¬ EndsInPair code.model.toList
  filterName : ∀ name, code.filter = some name → IsFilterName name.toList

/-- The text of the flags: one by one in either order, or as a pair in parentheses. -/
inductive IsFlags : Bool → Bool → List Char → Prop where
  | none : IsFlags false false []
  | damper : IsFlags true false damperFlag
  | screen : IsFlags false true screenFlag
  | damperScreen {blanks : List Char} : IsBlanks blanks →
      IsFlags true true (damperFlag ++ (blanks ++ screenFlag))
  | screenDamper {blanks : List Char} : IsBlanks blanks →
      IsFlags true true (screenFlag ++ (blanks ++ damperFlag))
  | pair {inner : List Char} : IsFlagPair ('(' :: (inner ++ [')'])) →
      IsFlags true true ('(' :: (inner ++ [')']))

def filterText : Option String → List Char
  | none => []
  | some name => filterMark ++ name.toList

/-- The spellings of a code, with its flags before or after its filter. -/
inductive Spells (code : ProductCode) : List Char → Prop where
  | flagsFirst {a b c d flags : List Char} : IsBlanks a → IsBlanks b → IsBlanks c → IsBlanks d →
      IsFlags code.withDamper code.accessory flags →
      Spells code
        (a ++ (code.model.toList ++ (b ++ (flags ++ (c ++ (filterText code.filter ++ d))))))
  | filterFirst {a b c d flags : List Char} : IsBlanks a → IsBlanks b → IsBlanks c → IsBlanks d →
      IsFlags code.withDamper code.accessory flags →
      Spells code
        (a ++ (code.model.toList ++ (b ++ (filterText code.filter ++ (c ++ (flags ++ d))))))

/-- A mark without blanks does not reach into blanks. -/
theorem apart_blanks {mark : List Char} (hmark : ∀ c ∈ mark, isBlank c = false)
    (hblanks : IsBlanks blanks) (hcs : Apart mark cs) : Apart mark (blanks ++ cs) := by
  cases blanks with
  | nil => exact hcs
  | cons c blanks =>
    refine Apart.of_head (fun hc ↦ ?_) _
    have hblank := hblanks c List.mem_cons_self
    rw [hmark c (List.mem_of_mem_tail hc)] at hblank
    cases hblank

/-! ### Flags that are taken out -/

/-- The model and its flags as they are read from a text without a filter. -/
def readFlags (cs : List Char) : List Char × Bool × Bool :=
  match beforeFlags? cs with
  | some model => (trim model, true, true)
  | none =>
    let (rest, accessory) := takeFlag screenFlag cs
    let (model, withDamper) := takeFlag damperFlag rest
    (model, withDamper, accessory)

theorem ofText_eq {text : String} {flagged : List Char} {filter : Option (List Char)}
    (hsplit : splitFilter (trim text.toList) = (flagged, filter))
    (hflags : readFlags flagged = (model, withDamper, accessory)) :
    ofText text = ⟨String.ofList model, withDamper, accessory,
      (filter.filter fun name ↦ !name.isEmpty).map String.ofList⟩ := by
  unfold readFlags at hflags
  unfold ofText
  rw [hsplit]
  simp only
  cases hbefore : beforeFlags? flagged with
  | some before =>
    simp only [hbefore, Prod.mk.injEq] at hflags
    obtain ⟨rfl, rfl, rfl⟩ := hflags
    rfl
  | none =>
    simp only [hbefore, Prod.mk.injEq] at hflags
    obtain ⟨rfl, rfl, rfl⟩ := hflags
    rfl

/-- The marks of the two flags. -/
def IsFlag (flag : List Char) : Prop := flag = damperFlag ∨ flag = screenFlag

theorem isFlag_damperFlag : IsFlag damperFlag := .inl rfl

theorem isFlag_screenFlag : IsFlag screenFlag := .inr rfl

theorem IsFlag.isBlank (h : IsFlag flag) : ∀ c ∈ flag, isBlank c = false := by
  have hall : flag.all (fun c ↦ !Text.isBlank c) = true := by rcases h with rfl | rfl <;> rfl
  exact fun c hc ↦ by simpa using List.all_eq_true.1 hall c hc

theorem IsFlag.isTrimmed (h : IsFlag flag) : IsTrimmed flag :=
  ⟨fun c hc ↦ h.isBlank c (List.mem_of_mem_head? hc),
    fun c hc ↦ h.isBlank c (List.mem_of_mem_getLast? hc)⟩

theorem IsFlag.apart (h : IsFlag flag) (hhead : cs.head? = some '(') : Apart flag cs := by
  intro c hc
  obtain rfl := Option.some.inj (hhead.symm.trans hc)
  rcases h with rfl | rfl <;> decide

theorem takeFlag_of_not_isInfix (h : ¬ flag <:+: cs) : takeFlag flag cs = (cs, false) :=
  if_neg (mt occurs_iff.1 h)

theorem takeFlag_of_isInfix (h : flag <:+: cs) :
    takeFlag flag cs = (trim (removeAll flag cs), true) :=
  if_pos (occurs_iff.2 h)

/-- The only flag of a text is taken out of it. -/
theorem takeFlag_append (hflag : IsFlag flag) (hfront : ¬ flag <:+: front)
    (hapart : Apart flag back) (hback : ¬ flag <:+: back) :
    takeFlag flag (front ++ (flag ++ back)) = (trim (front ++ back), true) := by
  have hself : Apart flag (flag ++ back) := by
    rcases hflag with rfl | rfl <;> exact Apart.of_head (by decide) _
  rw [takeFlag_of_isInfix ⟨front, back, List.append_assoc ..⟩, removeAll_append hself,
    removeAll_append hapart, removeAll_self, removeAll_of_not_infix hfront,
    removeAll_of_not_infix hback, List.nil_append]

theorem takeFlag_concat (hflag : IsFlag flag) (hfront : ¬ flag <:+: front) :
    takeFlag flag (front ++ flag) = (trim front, true) := by
  have hnil : ¬ flag <:+: [] := by rcases hflag with rfl | rfl <;> decide
  have h := takeFlag_append hflag hfront (Apart.nil flag) hnil
  rwa [List.append_nil, List.append_nil] at h

theorem not_infix_of_not_mem {c : Char} {mark : List Char} (hmem : c ∈ mark) (h : c ∉ cs) :
    ¬ mark <:+: cs := fun hfound ↦ h (hfound.subset hmem)

theorem not_infix_blanks (hflag : IsFlag flag) (hblanks : IsBlanks blanks) :
    ¬ flag <:+: blanks := by
  have hmem : '(' ∈ flag := by rcases hflag with rfl | rfl <;> decide
  exact not_infix_of_not_mem hmem (not_mem_blanks rfl hblanks)

/-- Blanks after a text hold no flag, nor does one reach into them. -/
theorem not_infix_append_blanks (hflag : IsFlag flag) (h : ¬ flag <:+: cs)
    (hblanks : IsBlanks blanks) : ¬ flag <:+: cs ++ blanks := by
  have hapart := apart_blanks hflag.isBlank hblanks (Apart.nil flag)
  rw [List.append_nil] at hapart
  rw [infix_append_iff hapart, not_or]
  exact ⟨h, not_infix_blanks hflag hblanks⟩

/-- Blanks between two trimmed texts stay, unless they stand at the front. -/
theorem exists_trim_append (hfront : IsTrimmed front) (hblanks : IsBlanks blanks)
    (hback : IsTrimmed back) (hne : back ≠ []) :
    ∃ between, IsBlanks between ∧
      trim (front ++ (blanks ++ back)) = front ++ (between ++ back) := by
  cases front with
  | nil =>
    refine ⟨[], List.forall_mem_nil _, ?_⟩
    rw [List.nil_append, ← List.append_nil back, trim_append hblanks (List.forall_mem_nil _),
      hback.trim_eq, List.append_nil]
    rfl
  | cons c front =>
    exact ⟨blanks, hblanks,
      (hfront.append_append (List.cons_ne_nil _ _) hback hne blanks).trim_eq⟩

theorem trim_append_blanks (hfront : IsTrimmed front) (hblanks : IsBlanks blanks) :
    trim (front ++ blanks) = front :=
  (trim_append (List.forall_mem_nil _) hblanks front).trans hfront.trim_eq

/-- What is left after the screen flag, if any, is a model with a damper flag. -/
theorem takeFlag_damper (hmodel : IsTrimmed model) (hdamper : ¬ damperFlag <:+: model)
    (hblanks : IsBlanks blanks) :
    takeFlag damperFlag (trim (model ++ (blanks ++ damperFlag))) = (model, true) := by
  obtain ⟨between, hbetween, htrim⟩ :=
    exists_trim_append hmodel hblanks isFlag_damperFlag.isTrimmed (by decide)
  have hnone := not_infix_append_blanks isFlag_damperFlag hdamper hbetween
  rw [htrim, ← List.append_assoc, takeFlag_concat isFlag_damperFlag hnone,
    trim_append_blanks hmodel hbetween]

theorem readFlags_of_not_endsInPair (h : ¬ EndsInPair cs) :
    readFlags cs = ((takeFlag damperFlag (takeFlag screenFlag cs).1).1,
      (takeFlag damperFlag (takeFlag screenFlag cs).1).2, (takeFlag screenFlag cs).2) := by
  unfold readFlags
  rw [beforeFlags?_eq_none_iff.2 h]

theorem readFlags_of_beforeFlags? (h : beforeFlags? cs = some front) :
    readFlags cs = (trim front, true, true) := by
  unfold readFlags
  rw [h]

/-- Where a text ends in a pair, that pair alone is taken for its flags. -/
theorem exists_readFlags_of_endsInPair (h : EndsInPair cs) :
    ∃ front pair, cs = front ++ pair ∧ IsFlagPair pair ∧
      readFlags cs = (trim front, true, true) := by
  cases hbefore : beforeFlags? cs with
  | none => exact absurd h (beforeFlags?_eq_none_iff.1 hbefore)
  | some front =>
    obtain ⟨pair, hcs, hpair⟩ := exists_pair_of_beforeFlags? hbefore
    exact ⟨front, pair, hcs, hpair, readFlags_of_beforeFlags? hbefore⟩

theorem IsFlags.isTrimmed (h : IsFlags withDamper accessory flags) : IsTrimmed flags := by
  cases h with
  | none => exact .nil
  | damper => exact isFlag_damperFlag.isTrimmed
  | screen => exact isFlag_screenFlag.isTrimmed
  | damperScreen =>
    refine ⟨head_of_not_blank rfl _, ?_⟩
    rw [← List.append_assoc, List.getLast?_append_of_ne_nil _ (by decide)]
    exact isFlag_screenFlag.isTrimmed.last
  | screenDamper =>
    refine ⟨head_of_not_blank rfl _, ?_⟩
    rw [← List.append_assoc, List.getLast?_append_of_ne_nil _ (by decide)]
    exact isFlag_damperFlag.isTrimmed.last
  | pair =>
    refine ⟨head_of_not_blank rfl _, ?_⟩
    rw [← List.cons_append, List.getLast?_concat]
    rintro c ⟨⟩
    rfl

/-- After a model without flags, flags are read as such. -/
theorem readFlags_append (hmodel : IsTrimmed model) (hdamper : ¬ damperFlag <:+: model)
    (hscreen : ¬ screenFlag <:+: model)
    (hpair : withDamper = false → accessory = false → ¬ EndsInPair model)
    (hblanks : IsBlanks blanks) (h : IsFlags withDamper accessory flags) :
    readFlags (trim (model ++ (blanks ++ flags))) = (model, withDamper, accessory) := by
  by_cases hnil : flags = []
  · subst hnil
    cases h with
    | none =>
      rw [List.append_nil, trim_append_blanks hmodel hblanks,
        readFlags_of_not_endsInPair (hpair rfl rfl), takeFlag_of_not_isInfix hscreen,
        takeFlag_of_not_isInfix hdamper]
  obtain ⟨between, hbetween, htrim⟩ := exists_trim_append hmodel hblanks h.isTrimmed hnil
  have hno_screen := not_infix_append_blanks isFlag_screenFlag hscreen hbetween
  have hno_screen' : ¬ screenFlag <:+: (model ++ between) ++ damperFlag := by
    rw [infix_append_iff (isFlag_screenFlag.apart rfl), not_or]
    exact ⟨hno_screen, by decide⟩
  rw [htrim, ← List.append_assoc]
  cases h with
  | none => exact absurd rfl hnil
  | damper =>
    have htake := takeFlag_damper hmodel hdamper hblanks
    rw [htrim, ← List.append_assoc] at htake
    rw [readFlags_of_not_endsInPair (not_endsInPair_append (by decide) (by decide) _),
      takeFlag_of_not_isInfix hno_screen', htake]
  | screen =>
    rw [readFlags_of_not_endsInPair (not_endsInPair_append (by decide) (by decide) _),
      takeFlag_concat isFlag_screenFlag hno_screen, trim_append_blanks hmodel hbetween,
      takeFlag_of_not_isInfix hdamper]
  | damperScreen hinner =>
    have hfront := not_infix_append_blanks isFlag_screenFlag hno_screen' hinner
    rw [← List.append_assoc, ← List.append_assoc,
      readFlags_of_not_endsInPair (not_endsInPair_append (by decide) (by decide) _),
      takeFlag_concat isFlag_screenFlag hfront]
    have htrimmed := trim_append (List.forall_mem_nil _) hinner ((model ++ between) ++ damperFlag)
    rw [List.nil_append] at htrimmed
    rw [htrimmed, List.append_assoc, takeFlag_damper hmodel hdamper hbetween]
  | @screenDamper inner hinner =>
    have hback : Apart screenFlag (inner ++ damperFlag) :=
      apart_blanks isFlag_screenFlag.isBlank hinner (isFlag_screenFlag.apart rfl)
    have hno_back : ¬ screenFlag <:+: inner ++ damperFlag := by
      rw [infix_append_iff (isFlag_screenFlag.apart rfl), not_or]
      exact ⟨not_infix_blanks isFlag_screenFlag hinner, by decide⟩
    have hpair' : ¬ EndsInPair ((model ++ between) ++ (screenFlag ++ (inner ++ damperFlag))) := by
      rw [← List.append_assoc, ← List.append_assoc]
      exact not_endsInPair_append (by decide) (by decide) _
    rw [readFlags_of_not_endsInPair hpair',
      takeFlag_append isFlag_screenFlag hno_screen hback hno_back, List.append_assoc,
      ← List.append_assoc between,
      takeFlag_damper hmodel hdamper (List.forall_mem_append.2 ⟨hbetween, hinner⟩)]
  | pair hinner =>
    rw [readFlags_of_beforeFlags? (beforeFlags?_append hinner _),
      trim_append_blanks hmodel hbetween]

/-! ### The filter -/

theorem isBlank_filterMark : ∀ c ∈ filterMark, isBlank c = false := by
  have hall : filterMark.all (fun c ↦ !isBlank c) = true := rfl
  exact fun c hc ↦ by simpa using List.all_eq_true.1 hall c hc

theorem isTrimmed_filterMark : IsTrimmed filterMark :=
  ⟨fun c hc ↦ isBlank_filterMark c (List.mem_of_mem_head? hc),
    fun c hc ↦ isBlank_filterMark c (List.mem_of_mem_getLast? hc)⟩

/-- What is read around the first mark of a filter. -/
theorem splitFilter_mark (h : ¬ filterMark <:+: trimStart front) (back : List Char) :
    splitFilter (trim (front ++ (filterMark ++ back))) =
      (trim front ++ (trim back).dropWhile (· ≠ '('),
        some (if ((trim back).dropWhile (· ≠ '(')).isEmpty then (trim back).takeWhile (· ≠ '(')
          else trim ((trim back).takeWhile (· ≠ '(')))) := by
  have hself : Apart filterMark filterMark := Apart.of_head (by decide) _
  unfold splitFilter
  rw [trim_append_append isTrimmed_filterMark (by decide), splitOnce_append (by decide) hself h]
  simp only
  rw [trim_trimStart, trim_trimEnd]

theorem splitFilter_of_not_infix (h : ¬ filterMark <:+: cs) : splitFilter cs = (cs, none) := by
  unfold splitFilter
  rw [splitOnce_eq_none_iff.2 h]

theorem splitFilter_name (h : ¬ filterMark <:+: trimStart front) (hname : IsFilterName name)
    (hblanks : IsBlanks blanks) :
    splitFilter (trim (front ++ (filterMark ++ (name ++ blanks)))) = (trim front, some name) := by
  have hall : ∀ c ∈ name, decide (c ≠ '(') = true := fun c hc ↦
    decide_eq_true fun heq ↦ hname.no_opening (heq ▸ hc)
  rw [splitFilter_mark h, trim_append_blanks hname.trimmed hblanks,
    List.takeWhile_eq_self_iff.2 hall, List.dropWhile_eq_nil_iff.2 hall, List.append_nil]
  rfl

/-- From a parenthesis on the text behind the filter belongs to the model. -/
theorem splitFilter_opening (h : ¬ filterMark <:+: trimStart front) (hcs : '(' ∉ cs)
    {inner : List Char} (hinner : IsTrimmed ('(' :: inner)) (hback : IsBlanks back) :
    splitFilter (trim (front ++ (filterMark ++ (cs ++ ('(' :: inner ++ back))))) =
      (trim front ++ '(' :: inner, some (trim cs)) := by
  have hall : ∀ c ∈ trimStart cs, decide (c ≠ '(') = true := fun c hc ↦
    decide_eq_true fun heq ↦ hcs ((trimStart_suffix cs).subset (heq ▸ hc))
  rw [splitFilter_mark h, trim_append_append hinner (List.cons_ne_nil _ _),
    trimEnd_of_isBlanks hback, List.append_nil, List.takeWhile_append_of_pos hall,
    List.dropWhile_append_of_pos hall,
    List.takeWhile_cons_of_neg (by simp), List.dropWhile_cons_of_neg (by simp), List.append_nil,
    trim_trimStart]
  rfl

/-! ### Readings of a spelling -/

theorem IsFlags.eq_nil_or (h : IsFlags withDamper accessory flags) :
    flags = [] ∨ ∃ inner, flags = '(' :: inner := by
  cases h with
  | none => exact .inl rfl
  | damper => exact .inr ⟨_, rfl⟩
  | screen => exact .inr ⟨_, rfl⟩
  | damperScreen => exact .inr ⟨_, rfl⟩
  | screenDamper => exact .inr ⟨_, rfl⟩
  | pair => exact .inr ⟨_, rfl⟩

theorem isForeign_plus : IsForeign '+' := ⟨rfl, by decide, by decide, by decide⟩

theorem IsFlags.plus_not_mem (h : IsFlags withDamper accessory flags) : '+' ∉ flags := by
  cases h with
  | none => decide
  | damper => decide
  | screen => decide
  | damperScreen hinner =>
    simp only [List.mem_append, not_or]
    exact ⟨by decide, not_mem_blanks rfl hinner, by decide⟩
  | screenDamper hinner =>
    simp only [List.mem_append, not_or]
    exact ⟨by decide, not_mem_blanks rfl hinner, by decide⟩
  | pair hpair =>
    exact fun hmem ↦ absurd ((hpair.not_mem isForeign_plus).2 hmem) (by decide)

/-- No mark of a filter reaches from a model into blanks and flags. -/
theorem not_filterMark_infix (hmodel : ¬ filterMark <:+: model) (hblanks : IsBlanks blanks)
    (h : IsFlags withDamper accessory flags) (hback : IsBlanks back) :
    ¬ filterMark <:+: model ++ (blanks ++ (flags ++ back)) := by
  have hplus : '+' ∉ blanks ++ (flags ++ back) := by
    simp only [List.mem_append, not_or]
    exact ⟨not_mem_blanks rfl hblanks, h.plus_not_mem, not_mem_blanks rfl hback⟩
  have hapart : Apart filterMark (flags ++ back) := by
    rcases h.eq_nil_or with rfl | ⟨inner, rfl⟩
    · rw [List.nil_append, ← List.append_nil back]
      exact apart_blanks isBlank_filterMark hback (Apart.nil filterMark)
    · exact Apart.of_head (by decide) _
  rw [infix_append_iff (apart_blanks isBlank_filterMark hblanks hapart), not_or]
  exact ⟨hmodel, not_infix_of_not_mem List.mem_cons_self hplus⟩

variable {code : ProductCode}

/-- With blanks and flags behind the model, the model and the flags are read as they are. -/
theorem readFlags_of_isReadable (h : code.IsReadable) (hclean : IsClean code.model.toList)
    (hblanks : IsBlanks blanks) (hflags : IsFlags code.withDamper code.accessory flags) :
    readFlags (trim (code.model.toList ++ (blanks ++ flags))) =
      (code.model.toList, code.withDamper, code.accessory) :=
  readFlags_append h.trimmed hclean.no_damperFlag hclean.no_screenFlag h.not_endsInPair hblanks
    hflags

/-- The model and the filter of a code that can be read are found again in their texts. -/
theorem ofText_eq_of_isReadable {text : String} {flagged : List Char} (h : code.IsReadable)
    (hsplit : splitFilter (trim text.toList) = (flagged, code.filter.map String.toList))
    (hread : readFlags flagged = (code.model.toList, code.withDamper, code.accessory)) :
    ofText text = code := by
  have hfilter : ((code.filter.map String.toList).filter fun name ↦ !name.isEmpty).map
      String.ofList = code.filter := by
    cases hname : code.filter with
    | none => rfl
    | some name =>
      have hne := (h.filterName name hname).ne_nil
      rw [Option.map_some, Option.filter_some, if_pos (by simpa using hne), Option.map_some,
        String.ofList_toList]
  rw [ofText_eq hsplit hread, hfilter, String.ofList_toList]

section Readings

variable {text : String} {a b c d : List Char}

theorem ofText_of_no_filter (h : code.IsReadable) (hclean : IsClean code.model.toList)
    (ha : IsBlanks a) (hb : IsBlanks b) (hd : IsBlanks d)
    (hflags : IsFlags code.withDamper code.accessory flags) (hfilter : code.filter = none)
    (htext : text.toList = a ++ (code.model.toList ++ (b ++ flags) ++ d)) : ofText text = code := by
  refine ofText_eq_of_isReadable h ?_ (readFlags_of_isReadable h hclean hb hflags)
  have hnone := not_filterMark_infix hclean.no_filterMark hb hflags (List.forall_mem_nil _)
  rw [List.append_nil] at hnone
  rw [htext, trim_append ha hd, hfilter, Option.map_none]
  exact splitFilter_of_not_infix fun hfound ↦ hnone (hfound.trans (isInfix_trim _))

theorem ofText_of_flags_name (h : code.IsReadable) (hclean : IsClean code.model.toList)
    (ha : IsBlanks a) (hb : IsBlanks b) (hc : IsBlanks c) (hd : IsBlanks d)
    (hflags : IsFlags code.withDamper code.accessory flags) {name : String}
    (hfilter : code.filter = some name)
    (htext : text.toList = a ++ (code.model.toList ++ (b ++ flags) ++ c) ++
      (filterMark ++ (name.toList ++ d))) : ofText text = code := by
  refine ofText_eq_of_isReadable h ?_ (readFlags_of_isReadable h hclean hb hflags)
  have hnone : ¬ filterMark <:+: trimStart (a ++ (code.model.toList ++ (b ++ flags) ++ c)) := by
    rw [trimStart_append ha, List.append_assoc, List.append_assoc]
    exact fun hfound ↦ not_filterMark_infix hclean.no_filterMark hb hflags hc
      (hfound.trans (trimStart_suffix _).isInfix)
  rw [htext, splitFilter_name hnone (h.filterName name hfilter) hd, trim_append ha hc, hfilter,
    Option.map_some]

theorem ofText_of_name_flags (h : code.IsReadable) (hclean : IsClean code.model.toList)
    (ha : IsBlanks a) (hb : IsBlanks b) (hc : IsBlanks c) (hd : IsBlanks d)
    (hflags : IsFlags code.withDamper code.accessory flags) {name : String}
    (hfilter : code.filter = some name)
    (htext : text.toList = a ++ (code.model.toList ++ b) ++
      (filterMark ++ (name.toList ++ (c ++ (flags ++ d))))) : ofText text = code := by
  have hname := h.filterName name hfilter
  have hread := readFlags_of_isReadable h hclean (List.forall_mem_nil _) hflags
  rw [List.nil_append, (h.trimmed.append hflags.isTrimmed).trim_eq] at hread
  refine ofText_eq_of_isReadable h ?_ hread
  have hnone : ¬ filterMark <:+: trimStart (a ++ (code.model.toList ++ b)) := by
    rw [trimStart_append ha]
    have hmodel := not_filterMark_infix hclean.no_filterMark hb .none (List.forall_mem_nil _)
    rw [List.nil_append, List.append_nil] at hmodel
    exact fun hfound ↦ hmodel (hfound.trans (trimStart_suffix _).isInfix)
  have hmodel : trim (a ++ (code.model.toList ++ b)) = code.model.toList := by
    rw [trim_append ha hb, h.trimmed.trim_eq]
  rw [htext, hfilter, Option.map_some]
  rcases hflags.eq_nil_or with rfl | ⟨inner, rfl⟩
  · rw [List.nil_append, splitFilter_name hnone hname (List.forall_mem_append.2 ⟨hc, hd⟩), hmodel,
      List.append_nil]
  · have hopening : '(' ∉ name.toList ++ c := by
      rw [List.mem_append, not_or]
      exact ⟨hname.no_opening, not_mem_blanks rfl hc⟩
    rw [← List.append_assoc name.toList, splitFilter_opening hnone hopening hflags.isTrimmed hd,
      hmodel, trim_append_blanks hname.trimmed hc]

end Readings

/-- The flags as they are shown. -/
def flagText (withDamper accessory : Bool) : List Char :=
  (if withDamper then damperFlag else []) ++ if accessory then screenFlag else []

theorem isFlags_flagText (withDamper accessory : Bool) :
    IsFlags withDamper accessory (flagText withDamper accessory) := by
  cases withDamper <;> cases accessory
  · exact .none
  · exact .screen
  · exact .damper
  · exact .damperScreen (List.forall_mem_nil _)

theorem toList_text (code : ProductCode) : code.text.toList =
    code.model.toList ++ (flagText code.withDamper code.accessory ++ filterText code.filter) := by
  unfold text flagText filterText
  cases code.withDamper <;> cases code.accessory <;> cases code.filter <;>
    simp [damperFlag, screenFlag, filterMark]

/-- The text that is shown spells the code. -/
theorem spells_text (code : ProductCode) : code.Spells code.text.toList := by
  have hnil : IsBlanks [] := List.forall_mem_nil _
  have h : code.Spells _ := .flagsFirst hnil hnil hnil hnil (isFlags_flagText _ _)
  rw [List.append_nil, List.nil_append, List.nil_append, List.nil_append] at h
  rwa [toList_text]

theorem ofText_eq_of_spells {text : String} (h : code.IsReadable)
    (hclean : IsClean code.model.toList) (htext : code.Spells text.toList) :
    ofText text = code := by
  generalize htext' : text.toList = cs at htext
  cases htext with
  | @flagsFirst a b c d flags ha hb hc hd hflags =>
    cases hfilter : code.filter with
    | none =>
      have hcd := List.forall_mem_append.2 ⟨hc, hd⟩
      refine ofText_of_no_filter h hclean ha hb hcd hflags hfilter ?_
      rw [htext', hfilter]
      simp only [filterText, List.append_assoc, List.nil_append]
    | some name =>
      refine ofText_of_flags_name h hclean ha hb hc hd hflags hfilter ?_
      rw [htext', hfilter]
      simp only [filterText, List.append_assoc]
  | @filterFirst a b c d flags ha hb hc hd hflags =>
    cases hfilter : code.filter with
    | none =>
      have hbc := List.forall_mem_append.2 ⟨hb, hc⟩
      refine ofText_of_no_filter h hclean ha hbc hd hflags hfilter ?_
      rw [htext', hfilter]
      simp only [filterText, List.append_assoc, List.nil_append]
    | some name =>
      refine ofText_of_name_flags h hclean ha hb hc hd hflags hfilter ?_
      rw [htext', hfilter]
      simp only [filterText, List.append_assoc]

/-- Every spelling of a code is read as that code, and so is the text that is shown for it. The
model must hold none of the marks, and must be trimmed as the filter is. -/
theorem ofText_of_spells (h : code.IsReadable) (hclean : IsClean code.model.toList) :
    (∀ text : String, code.Spells text.toList → ofText text = code) ∧ ofText code.text = code :=
  ⟨fun _ ↦ ofText_eq_of_spells h hclean, ofText_eq_of_spells h hclean code.spells_text⟩

/-- A model that ends like a mark, with both flags as a pair in another letter case. -/
def unfinished : ProductCode := ⟨"A(+F", true, true, some "Nylon"⟩

theorem ofText_of_spells_unfinished : unfinished.IsReadable ∧ IsClean unfinished.model.toList ∧
    ofText " A(+F ( iNs , wd )+F.Nylon" = unfinished := by
  have hmodel : unfinished.model.toList = ['A', '(', '+', 'F'] := by decide +kernel
  have hname : "Nylon".toList = ['N', 'y', 'l', 'o', 'n'] := by decide +kernel
  have hreadable : unfinished.IsReadable := by
    refine ⟨?_, nofun, ?_⟩
    · rw [hmodel]
      exact ⟨head_of_not_blank rfl _, by rintro c ⟨⟩; rfl⟩
    · rintro name ⟨⟩
      rw [hname]
      exact ⟨List.cons_ne_nil _ _, ⟨head_of_not_blank rfl _, by rintro c ⟨⟩; rfl⟩, by decide⟩
  have hclean : IsClean unfinished.model.toList := by
    rw [hmodel]
    exact ⟨by decide, by decide, by decide⟩
  have hblank : IsBlanks [' '] := by
    rintro c hc
    rw [List.mem_singleton.1 hc]
    rfl
  have hnil : IsBlanks [] := List.forall_mem_nil _
  have hpair : IsFlagPair "( iNs , wd )".toList :=
    .inr (@IsPairText.intro _ _ ['('] [')'] ['i', 'N', 's'] ['w', 'd'] _ _ _ _ (.inr rfl) (.inr rfl)
      hblank hblank hblank hblank rfl rfl)
  refine ⟨hreadable, hclean, (ofText_of_spells hreadable hclean).1 _ ?_⟩
  have htext : " A(+F ( iNs , wd )+F.Nylon".toList =
      [' '] ++ (unfinished.model.toList ++ ([' '] ++ ('(' ::
        ([' ', 'i', 'N', 's', ' ', ',', ' ', 'w', 'd', ' '] ++ [')']) ++ ([] ++
          (filterText unfinished.filter ++ []))))) := by decide +kernel
  rw [htext]
  exact .flagsFirst hblank hblank hnil hnil (.pair hpair)

end Ventilation.ProductCode

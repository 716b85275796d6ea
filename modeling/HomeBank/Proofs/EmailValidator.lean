import HomeBank.Spec.EmailValidator

/-! The email validator accepts an unquoted address exactly where the local part is atoms
joined by dots and the domain is one of `Domain`. An upper-case letter is in no class, a label
of two or more characters cannot end in a digit, and a dot is also an inner character of a
label. -/

namespace HomeBank.EmailValidator

open Regex

/-! ### Words of the parts of the pattern -/

theorem isLabelStart_of_isLabelEnd {c : Char} (h : isLabelEnd c = true) : isLabelStart c = true := by
  unfold isLabelEnd at h
  unfold isLabelStart
  grind

theorem isLabelChar_of_isLabelStart {c : Char} (h : isLabelStart c = true) :
    isLabelChar c = true := by
  unfold isLabelStart at h
  unfold isLabelChar
  grind

theorem mem_dotAtoms {w : List Char} : w ∈ dotAtoms.lang ↔ Atoms w := by
  unfold dotAtoms Atoms
  simp only [mem_sepBy, mem_plus_one]

theorem mem_labelFrom {start : Char → Bool} {w : List Char} :
    w ∈ (labelFrom start).lang ↔ (∃ c, start c = true ∧ w = [c]) ∨
      ∃ a inner b, start a = true ∧ (∀ c ∈ inner, isLabelChar c = true) ∧ isLabelEnd b = true ∧
        w = a :: (inner ++ [b]) := by
  unfold labelFrom
  rw [mem_add, mem_one]
  refine or_congr_right ⟨?_, ?_⟩
  · intro hw
    obtain ⟨_, ⟨a, ha, rfl⟩, _, ⟨inner, hinner, _, ⟨b, hb, rfl⟩, rfl⟩, rfl⟩ := hw
    exact ⟨a, inner, b, ha, mem_star_one.1 hinner, hb, rfl⟩
  · intro ⟨a, inner, b, ha, hinner, hb, hw⟩
    rw [hw]
    exact ⟨[a], ⟨a, ha, rfl⟩, _, ⟨inner, mem_star_one.2 hinner, [b], ⟨b, hb, rfl⟩, rfl⟩, rfl⟩

/-- A text that stands before a dot of the domain and is labels joined by dots. -/
structure Labels (text : List Char) : Prop where
  start : ∃ c ∈ text.head?, isLabelStart c = true
  chars : ∀ c ∈ text, isLabelChar c = true
  closed : Closed text

theorem Closed.append {u v : List Char} (hu : Closed u) (hv : Closed v) : Closed (u ++ '.' :: v) := by
  induction hv with
  | finish text c hc =>
    have h := Closed.finish (u ++ '.' :: text) c hc
    rwa [List.append_assoc] at h
  | start c hc => exact .label u c hu hc
  | label text c _ hc ih =>
    have h := Closed.label _ c ih hc
    rwa [List.append_assoc] at h

theorem Labels.append {u v : List Char} (hu : Labels u) (hv : Labels v) : Labels (u ++ '.' :: v) where
  start := by
    obtain ⟨c, hc, hstart⟩ := hu.start
    exact ⟨c, List.mem_head?_append_of_mem_head? hc, hstart⟩
  chars := List.forall_mem_append.2 ⟨hu.chars, List.forall_mem_cons.2 ⟨rfl, hv.chars⟩⟩
  closed := hu.closed.append hv.closed

/-- One label is such a text. -/
theorem labels_of_mem_labelFrom {w : List Char} (h : w ∈ (labelFrom isLabelStart).lang) :
    Labels w := by
  rcases mem_labelFrom.1 h with ⟨c, hc, rfl⟩ | ⟨a, inner, b, ha, hinner, hb, rfl⟩
  · exact ⟨⟨c, rfl, hc⟩, by simpa using isLabelChar_of_isLabelStart hc, .start c hc⟩
  · refine ⟨⟨a, rfl, ha⟩, ?_, .finish (a :: inner) b hb⟩
    have hb' := isLabelChar_of_isLabelStart (isLabelStart_of_isLabelEnd hb)
    refine List.forall_mem_cons.2 ⟨isLabelChar_of_isLabelStart ha, ?_⟩
    exact List.forall_mem_append.2 ⟨hinner, by simpa using hb'⟩

/-- The other way round: a closed text with the right characters is read as labels. -/
theorem mem_plus_of_labels {w : List Char} (hclosed : Closed w)
    (hstart : ∃ c ∈ w.head?, isLabelStart c = true) (hchars : ∀ c ∈ w, isLabelChar c = true) :
    w ++ ['.'] ∈ (plus (labelFrom isLabelStart * letter '.')).lang := by
  have hlabel : ∀ u ∈ (labelFrom isLabelStart).lang,
      u ++ ['.'] ∈ (labelFrom isLabelStart * letter '.').lang := fun u hu =>
    mem_mul.2 ⟨u, hu, _, mem_letter.2 rfl, rfl⟩
  induction hclosed with
  | finish text c hc =>
    refine mem_plus_of_mem (hlabel _ (mem_labelFrom.2 ?_))
    cases text with
    | nil => exact .inl ⟨c, isLabelStart_of_isLabelEnd hc, rfl⟩
    | cons a inner =>
      obtain ⟨a', ha', hstart⟩ := hstart
      cases ha'
      have hinner := (List.forall_mem_append.1 (List.forall_mem_cons.1 hchars).2).1
      exact .inr ⟨a, inner, c, hstart, hinner, hc, rfl⟩
  | start c hc => exact mem_plus_of_mem (hlabel _ (mem_labelFrom.2 (.inl ⟨c, hc, rfl⟩)))
  | label text c htext hc ih =>
    have hne : text ≠ [] := by cases htext <;> simp
    obtain ⟨a, rest, rfl⟩ := List.exists_cons_of_ne_nil hne
    have hfront := ih hstart (List.forall_mem_append.1 hchars).1
    have hlast := hlabel [c] (mem_labelFrom.2 (.inl ⟨c, hc, rfl⟩))
    have h := plus_append hfront hlast
    rw [List.append_assoc] at h
    rw [List.append_assoc]
    exact h

theorem mem_labels {w : List Char} : w ∈ (plus (labelFrom isLabelStart * letter '.')).lang ↔
    ∃ text, w = text ++ ['.'] ∧ Labels text := by
  refine ⟨?_, ?_⟩
  · refine plus_induction (P := fun w => ∃ text, w = text ++ ['.'] ∧ Labels text) ?_ ?_ w
    · intro u hu
      obtain ⟨label, hlabel, _, hdot, rfl⟩ := mem_mul.1 hu
      exact ⟨label, by rw [mem_letter.1 hdot], labels_of_mem_labelFrom hlabel⟩
    · intro u hu v ⟨text, hv, htext⟩
      obtain ⟨label, hlabel, _, hdot, rfl⟩ := mem_mul.1 hu
      refine ⟨label ++ '.' :: text, ?_, (labels_of_mem_labelFrom hlabel).append htext⟩
      rw [hv, mem_letter.1 hdot, List.append_assoc, List.append_assoc]
      rfl
  · intro ⟨text, hw, htext⟩
    rw [hw]
    exact mem_plus_of_labels htext.closed htext.start htext.chars

theorem mem_lastLabel {w : List Char} : w ∈ (labelFrom isLabelEnd).lang ↔
    (∃ c ∈ w.head?, isLabelEnd c = true) ∧ (∃ c ∈ w.getLast?, isLabelEnd c = true) ∧
      ∀ c ∈ w, isLabelChar c = true := by
  have hchar : ∀ {c}, isLabelEnd c = true → isLabelChar c = true := fun hc =>
    isLabelChar_of_isLabelStart (isLabelStart_of_isLabelEnd hc)
  rw [mem_labelFrom]
  refine ⟨?_, ?_⟩
  · intro h
    rcases h with ⟨c, hc, rfl⟩ | ⟨a, inner, b, ha, hinner, hb, rfl⟩
    · exact ⟨⟨c, rfl, hc⟩, ⟨c, rfl, hc⟩, by simpa using hchar hc⟩
    · refine ⟨⟨a, rfl, ha⟩, ⟨b, ?_, hb⟩, List.forall_mem_cons.2 ⟨hchar ha, ?_⟩⟩
      · rw [← List.cons_append, List.getLast?_concat]
        rfl
      · exact List.forall_mem_append.2 ⟨hinner, by simpa using hchar hb⟩
  · intro ⟨⟨a, ha, hstart⟩, ⟨b, hb, hfinish⟩, hchars⟩
    obtain ⟨front, rfl⟩ := List.getLast?_eq_some_iff.1 hb
    cases front with
    | nil => exact .inl ⟨b, hfinish, rfl⟩
    | cons a' inner =>
      cases ha
      have hinner := (List.forall_mem_append.1 (List.forall_mem_cons.1 hchars).2).1
      exact .inr ⟨a, inner, b, hstart, hinner, hfinish, rfl⟩

/-- The domains of the pattern are those of `Domain`. -/
theorem mem_domainPattern {w : List Char} : w ∈ domainPattern.lang ↔ Domain w := by
  unfold domainPattern
  rw [mem_mul]
  refine ⟨?_, ?_⟩
  · intro ⟨front, hfront, back, hback, hw⟩
    obtain ⟨text, rfl, htext⟩ := mem_labels.1 hfront
    obtain ⟨hturn, ⟨b, hb, hfinish⟩, hchars⟩ := mem_lastLabel.1 hback
    obtain ⟨a, ha, hstart⟩ := htext.start
    rw [← hw, List.append_assoc]
    refine ⟨⟨a, List.mem_head?_append_of_mem_head? ha, hstart⟩, ⟨b, ?_, hfinish⟩, ?_, ?_⟩
    · exact List.mem_getLast?_append_of_mem_getLast? (List.mem_getLast?_append_of_mem_getLast? hb)
    · exact List.forall_mem_append.2 ⟨htext.chars, List.forall_mem_cons.2 ⟨rfl, hchars⟩⟩
    · exact ⟨text, back, rfl, htext.closed, hturn⟩
  · intro ⟨⟨a, ha, hstart⟩, ⟨b, hb, hfinish⟩, hchars, front, back, hw, hclosed, hturn⟩
    subst hw
    obtain ⟨hfront, hback⟩ := List.forall_mem_append.1 hchars
    have hback := (List.forall_mem_cons.1 hback).2
    have hfne : front ≠ [] := by cases hclosed <;> simp
    have hbne : back ≠ [] := by
      obtain ⟨c, hc, _⟩ := hturn
      exact List.ne_nil_of_mem (List.mem_of_mem_head? hc)
    refine ⟨front ++ ['.'], ?_, back, mem_lastLabel.2 ⟨hturn, ⟨b, ?_, hfinish⟩, hback⟩, ?_⟩
    · refine mem_labels.2 ⟨front, rfl, ⟨a, ?_, hstart⟩, hfront, hclosed⟩
      rwa [List.head?_append_of_ne_nil _ hfne] at ha
    · rwa [List.getLast?_append_of_ne_nil _ (List.cons_ne_nil _ _),
        List.getLast?_cons_of_ne_nil hbne] at hb
    · exact List.append_assoc ..

/-! ### The whole text -/

theorem at_notMem_of_domain {domain : List Char} (h : Domain domain) : '@' ∉ domain := fun hmem =>
  Bool.false_ne_true (h.chars '@' hmem)

/-- A quoted local part begins with its quotation mark. -/
theorem head_of_mem_quoted {w : List Char} (h : w ∈ quoted.lang) : w.head? = some '"' := by
  unfold quoted at h
  obtain ⟨rest, _, rfl⟩ := mem_letter_mul.1 h
  rfl

theorem mem_pattern {localPart domain : List Char} (hlast : '@' ∉ domain)
    (hplain : localPart.head? ≠ some '"') :
    localPart ++ '@' :: domain ∈ pattern.lang ↔ Atoms localPart ∧ Domain domain := by
  unfold pattern
  rw [mem_mul]
  refine ⟨?_, ?_⟩
  · intro ⟨front, hfront, back, hback, hw⟩
    obtain ⟨rest, hrest, rfl⟩ := mem_letter_mul.1 hback
    have hdomain := mem_domainPattern.1 hrest
    obtain ⟨rfl, rfl⟩ := append_cons_inj_of_last (at_notMem_of_domain hdomain) hlast hw
    rcases mem_add.1 hfront with hatoms | hquoted
    · exact ⟨mem_dotAtoms.1 hatoms, hdomain⟩
    · exact absurd (head_of_mem_quoted hquoted) hplain
  · intro ⟨hatoms, hdomain⟩
    have hback : '@' :: domain ∈ (letter '@' * domainPattern).lang :=
      mem_letter_mul.2 ⟨domain, mem_domainPattern.2 hdomain, rfl⟩
    exact ⟨localPart, mem_add.2 (.inl (mem_dotAtoms.2 hatoms)), _, hback, rfl⟩

/-- The check for an empty text adds nothing to the pattern, which asks for an `@`. -/
theorem validator_eq_none {s : String} : validator (some s) = none ↔ s.toList ∈ pattern.lang := by
  rw [← accepts_iff, validator]
  refine ⟨?_, ?_⟩
  · intro h
    split at h
    · cases h
    · split at h
      · cases h
      · next haccepts => simpa using haccepts
  · intro haccepts
    have htrim : Dart.trim s.toList ≠ [] := by
      obtain ⟨front, _, back, hback, hw⟩ := mem_mul.1 (accepts_iff.1 haccepts)
      obtain ⟨rest, _, rfl⟩ := mem_letter_mul.1 hback
      have hat : '@' ∈ s.toList := hw ▸ List.mem_append_right front (List.mem_cons_self ..)
      exact Dart.trim_ne_nil hat (by decide)
    simp [htrim, haccepts]

/-- Which unquoted addresses the validator accepts. -/
theorem validator_unquoted {s : String} {localPart domain : List Char}
    (h : Unquoted s localPart domain) :
    validator (some s) = none ↔ Atoms localPart ∧ Domain domain := by
  rw [validator_eq_none, h.split, mem_pattern h.last h.plain]

/-! ### Dots -/

theorem wellSeparated_of_atoms {localPart : List Char} (h : Atoms localPart) :
    WellSeparated '.' localPart :=
  h.wellSeparated fun _ hatom => ⟨hatom.1, fun hdot => absurd (hatom.2 '.' hdot) (by decide)⟩

/-- A domain of the pattern neither begins nor ends with a dot, so only two in a row are left. -/
theorem wellSeparated_of_domain {domain : List Char} (h : Domain domain)
    (hinner : ¬ ['.', '.'] <:+: domain) : WellSeparated '.' domain where
  front := by
    intro ⟨rest, hrest⟩
    obtain ⟨c, hc, hstart⟩ := h.start
    rw [← hrest] at hc
    cases hc
    exact absurd hstart (by decide)
  back := by
    intro ⟨rest, hrest⟩
    obtain ⟨c, hc, hfinish⟩ := h.finish
    rw [← hrest, List.getLast?_concat] at hc
    cases hc
    exact absurd hfinish (by decide)
  inner := hinner

/-! ### Ordinary addresses -/

theorem isUpper_of_toNat {c : Char} (h : c.toNat < 65 ∨ 90 < c.toNat) : c.isUpper = false := by
  refine decide_eq_false fun ⟨hlo, hhi⟩ => ?_
  have h65 : 65 ≤ c.toNat := UInt32.le_iff_toNat_le.1 hlo
  have h90 : c.toNat ≤ 90 := UInt32.le_iff_toNat_le.1 hhi
  omega

theorem isUpper_of_isLower {c : Char} (h : c.isLower = true) : c.isUpper = false := by
  have h97 : 97 ≤ c.toNat := UInt32.le_iff_toNat_le.1 (of_decide_eq_true (Bool.and_eq_true_iff.1 h).1)
  exact isUpper_of_toNat (.inr (by omega))

theorem isUpper_of_isDigit {c : Char} (h : c.isDigit = true) : c.isUpper = false := by
  have h9 : '9'.toNat = 57 := rfl
  have hdigit := (Char.isDigit_iff_toNat.1 h).2
  exact isUpper_of_toNat (.inl (by omega))

theorem isUpper_of_isSymbol {c : Char} (h : isSymbol c = true) : c.isUpper = false := by
  have hall : "!#$%&'*+-/=?^_`\x7b|\x7d~".toList.all (fun c => !c.isUpper) = true := by decide
  simpa using List.all_eq_true.1 hall c (List.contains_iff_mem.1 h)

theorem isUpper_of_inRange {lo hi : ℕ} {c : Char} (hlo : 90 < lo) (h : inRange lo hi c = true) :
    c.isUpper = false := by
  unfold inRange at h
  rw [Bool.and_eq_true, decide_eq_true_iff] at h
  exact isUpper_of_toNat (.inr (hlo.trans_le h.1))

theorem isUpper_of_isUnicode {c : Char} (h : isUnicode c = true) : c.isUpper = false := by
  unfold isUnicode at h
  simp only [Bool.or_eq_true] at h
  rcases h with (h | h) | h <;> exact isUpper_of_inRange (by decide) h

/-- No class of the pattern has an upper-case letter. -/
theorem isUpper_of_isAtomChar {c : Char} (h : isAtomChar c = true) : c.isUpper = false := by
  unfold isAtomChar at h
  simp only [Bool.or_eq_true] at h
  rcases h with ((h | h) | h) | h
  · exact isUpper_of_isLower h
  · exact isUpper_of_isDigit h
  · exact isUpper_of_isSymbol h
  · exact isUpper_of_isUnicode h

theorem isUpper_of_isLabelChar {c : Char} (h : isLabelChar c = true) : c.isUpper = false := by
  unfold isLabelChar at h
  simp only [Bool.or_eq_true, decide_eq_true_iff] at h
  rcases h with (((((h | h) | rfl) | rfl) | rfl) | rfl) | h
  · exact isUpper_of_isLower h
  · exact isUpper_of_isDigit h
  · rfl
  · rfl
  · rfl
  · rfl
  · exact isUpper_of_isUnicode h

theorem atoms_of_ordinary {localPart domain : List Char} (h : Ordinary localPart domain)
    (hlower : ∀ c ∈ localPart, c.isUpper = false) : Atoms localPart := by
  refine (h.atoms.and_forall hlower).mono ?_
  intro atom ⟨⟨hne, hchars⟩, hlower⟩
  refine ⟨hne, fun c hc => ?_⟩
  have hordinary := hchars c hc
  unfold isOrdinary Char.isAlphanum Char.isAlpha at hordinary
  unfold isAtomChar
  grind

theorem Ordinary.chars {localPart domain : List Char} (h : Ordinary localPart domain) :
    ∀ c ∈ domain, (c.isAlphanum || c = '-') = true ∨ c = '.' := by
  obtain ⟨front, last, rfl, hfront, hlast, _⟩ := h.labels
  refine List.forall_mem_append.2 ⟨?_, List.forall_mem_cons.2 ⟨.inr rfl, ?_⟩⟩
  · exact hfront.forall_mem (fun _ hlabel c hc => .inl (hlabel.chars c hc)) (.inr rfl)
  · exact fun c hc => .inl (hlast.chars c hc)

/-- In lower case the characters of an ordinary domain fit, its first and its last as well. -/
theorem domain_of_ordinary {localPart domain : List Char} (h : Ordinary localPart domain)
    (hlower : ∀ c ∈ domain, c.isUpper = false) (hturns : Turns domain) : Domain domain where
  start := by
    obtain ⟨front, last, rfl, hfront, _, _⟩ := h.labels
    obtain ⟨c, hc, hstart⟩ := hfront.exists_head fun _ hlabel => hlabel.start
    have hmem := List.mem_head?_append_of_mem_head? (t := '.' :: last) hc
    refine ⟨c, hmem, ?_⟩
    have hupper := hlower c (List.mem_of_mem_head? hmem)
    unfold Char.isAlphanum Char.isAlpha at hstart
    unfold isLabelStart
    grind
  finish := by
    obtain ⟨front, last, rfl, _, hlast, halpha⟩ := h.labels
    obtain ⟨c, hc, _⟩ := hlast.finish
    have hmem := List.mem_of_mem_getLast? hc
    have hupper := hlower c (List.mem_append_right front (List.mem_cons_of_mem '.' hmem))
    have hletter := halpha c hmem
    refine ⟨c, List.mem_getLast?_append_of_mem_getLast? (List.mem_getLast?_cons hc), ?_⟩
    unfold Char.isAlpha at hletter
    unfold isLabelEnd
    grind
  chars := by
    intro c hc
    have hupper := hlower c hc
    rcases h.chars c hc with hchar | rfl
    · unfold Char.isAlphanum Char.isAlpha at hchar
      unfold isLabelChar
      grind
    · rfl
  turns := hturns

theorem Ordinary.unquoted {s : String} {localPart domain : List Char}
    (hsplit : s.toList = localPart ++ '@' :: domain) (h : Ordinary localPart domain) :
    Unquoted s localPart domain where
  split := hsplit
  last := fun hat => absurd (h.chars '@' hat) (by decide)
  plain := by
    intro hquote
    have hchar : isOrdinary '"' = true ∨ '"' = '.' :=
      h.atoms.forall_mem (q := fun c => isOrdinary c = true ∨ c = '.')
        (fun _ hatom c hc => .inl (hatom.2 c hc)) (.inr rfl) _ (List.mem_of_mem_head? hquote)
    exact absurd hchar (by decide)

/-! ### When the validator keeps its promise -/

/-- It does where an ordinary address has no upper-case letter and a dot of its domain stands
between a closed text and a letter, and where a domain with two dots in a row has something
else that the pattern refuses. -/
theorem email_validator_iff (s : String) : Faithful s ↔
    ∀ localPart domain, Unquoted s localPart domain →
      (Ordinary localPart domain → (∀ c ∈ s.toList, c.isUpper = false) ∧ Turns domain) ∧
      (['.', '.'] <:+: domain → ¬ (Atoms localPart ∧ Domain domain)) := by
  refine ⟨?_, ?_⟩
  · intro h localPart domain hsplit
    refine ⟨?_, ?_⟩
    · intro hordinary
      have haccepted := h.accepts localPart domain hsplit.split hordinary
      obtain ⟨hatoms, hdomain⟩ := (validator_unquoted hsplit).1 haccepted
      refine ⟨?_, hdomain.turns⟩
      rw [hsplit.split]
      refine List.forall_mem_append.2 ⟨?_, List.forall_mem_cons.2 ⟨by decide, ?_⟩⟩
      · exact hatoms.forall_mem (q := fun c => c.isUpper = false)
          (fun atom hatom c hc => isUpper_of_isAtomChar (hatom.2 c hc)) (by decide)
      · exact fun c hc => isUpper_of_isLabelChar (hdomain.chars c hc)
    · intro hdots hboth
      exact (h.wellDotted ((validator_unquoted hsplit).2 hboth) localPart domain hsplit).2.inner hdots
  · intro h
    refine ⟨?_, ?_⟩
    · intro localPart domain hsplit hordinary
      have hunquoted := hordinary.unquoted hsplit
      obtain ⟨hlower, hturns⟩ := (h localPart domain hunquoted).1 hordinary
      rw [hsplit] at hlower
      obtain ⟨hlocal, hdomain⟩ := List.forall_mem_append.1 hlower
      refine (validator_unquoted hunquoted).2 ⟨atoms_of_ordinary hordinary hlocal, ?_⟩
      exact domain_of_ordinary hordinary (List.forall_mem_cons.1 hdomain).2 hturns
    · intro haccepted localPart domain hunquoted
      obtain ⟨hatoms, hdomain⟩ := (validator_unquoted hunquoted).1 haccepted
      refine ⟨wellSeparated_of_atoms hatoms, wellSeparated_of_domain hdomain fun hdots => ?_⟩
      exact (h localPart domain hunquoted).2 hdots ⟨hatoms, hdomain⟩

theorem label_of_all {label : List Char} {a b : Char} (ha : label.head? = some a)
    (hb : label.getLast? = some b) (hstart : a.isAlphanum = true) (hfinish : b.isAlphanum = true)
    (hall : label.all (fun c => c.isAlphanum || c = '-') = true) : Label label :=
  ⟨⟨a, ha, hstart⟩, ⟨b, hb, hfinish⟩, List.all_eq_true.1 hall⟩

/-- Addresses of one atom and two labels. -/
theorem ordinary_of_parts {atom front last : List Char} (hne : atom ≠ [])
    (hatom : atom.all isOrdinary = true) (hfront : Label front) (hlast : Label last)
    (halpha : last.all Char.isAlpha = true) : Ordinary atom (front ++ '.' :: last) where
  atoms := .single ⟨hne, List.all_eq_true.1 hatom⟩
  labels := ⟨front, last, rfl, .single hfront, hlast, List.all_eq_true.1 halpha⟩

/-- An upper-case letter and a label that ends in a digit are refused, two dots in a row are
not. -/
theorem ordinary_address_refused : ¬ Faithful "Amy@web.tw" ∧ ¬ Faithful "amy@web2.tw" ∧
    ¬ Faithful "amy@web..shop.tw" := by
  have htw : Label ['t', 'w'] := label_of_all rfl rfl rfl rfl rfl
  refine ⟨?_, ?_, ?_⟩
  · intro h
    have hweb : Label ['w', 'e', 'b'] := label_of_all rfl rfl rfl rfl rfl
    have hordinary : Ordinary ['A', 'm', 'y'] "web.tw".toList :=
      ordinary_of_parts (List.cons_ne_nil _ _) rfl hweb htw rfl
    exact absurd (h.accepts _ _ rfl hordinary) (by decide +kernel)
  · intro h
    have hweb : Label ['w', 'e', 'b', '2'] := label_of_all rfl rfl rfl rfl rfl
    have hordinary : Ordinary ['a', 'm', 'y'] "web2.tw".toList :=
      ordinary_of_parts (List.cons_ne_nil _ _) rfl hweb htw rfl
    exact absurd (h.accepts _ _ rfl hordinary) (by decide +kernel)
  · intro h
    have hunquoted : Unquoted "amy@web..shop.tw" ['a', 'm', 'y'] "web..shop.tw".toList :=
      ⟨rfl, by decide, by decide⟩
    have hdots : ['.', '.'] <:+: "web..shop.tw".toList := ⟨"web".toList, "shop.tw".toList, rfl⟩
    exact (h.wellDotted (by decide +kernel) _ _ hunquoted).2.inner hdots

end HomeBank.EmailValidator

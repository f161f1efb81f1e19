import Mathlib.Data.List.Basic
import Neighbor.Listing
import Neighbor.Proofs.Notation

/-!
# What a line tells

The texts in the first four columns of a line hold no space and fit their columns, so the columns
stand at the same places in every line and a column tells the text in it. The notes behind them are
told apart by their names, and each ends where the digits of its number end. `Row.text_tells` says
where the columns stand and that rows with the same line agree in what the line shows.
-/

namespace Neighbor

namespace Text

variable {as bs ss ts cs ds : List Char} {c : Char} {m n width : Nat}

/-- Texts that do not hold a character are told apart if nothing follows them or what follows begins
with that character. -/
theorem append_inj_of_not_mem (has : c ∉ as) (hbs : c ∉ bs) (hss : ∀ d ∈ ss.head?, d = c)
    (hts : ∀ d ∈ ts.head?, d = c) (h : as ++ ss = bs ++ ts) : as = bs ∧ ss = ts := by
  induction as generalizing bs with
  | nil =>
    cases bs with
    | nil => exact ⟨rfl, h⟩
    | cons b bs =>
      have hfirst : b = c := hss b (by rw [← List.nil_append ss, h]; rfl)
      exact absurd (hfirst ▸ List.mem_cons_self) hbs
  | cons a as ih =>
    cases bs with
    | nil =>
      have hfirst : a = c := hts a (by rw [← List.nil_append ts, ← h]; rfl)
      exact absurd (hfirst ▸ List.mem_cons_self) has
    | cons b bs =>
      obtain ⟨rfl, hrest⟩ := List.cons_eq_cons.mp h
      obtain ⟨rfl, hss⟩ := ih (fun hc => has (List.mem_cons_of_mem _ hc))
        (fun hc => hbs (List.mem_cons_of_mem _ hc)) hrest
      exact ⟨rfl, hss⟩

/-- A text is told by what stands before the first separator. -/
theorem append_cons_inj_of_not_mem (has : c ∉ as) (hbs : c ∉ bs)
    (h : as ++ c :: ss = bs ++ c :: ts) : as = bs ∧ ss = ts := by
  have hhead (xs : List Char) : ∀ d ∈ (c :: xs).head?, d = c :=
    fun d hd => (Option.some.inj hd).symm
  obtain ⟨hfront, hrest⟩ := append_inj_of_not_mem has hbs (hhead ss) (hhead ts) h
  exact ⟨hfront, (List.cons_eq_cons.mp hrest).2⟩

/-- A column tells the text in it. -/
theorem padded_inj (hcs : ' ' ∉ cs) (hds : ' ' ∉ ds) (h : padded width cs = padded width ds) :
    cs = ds := by
  have hspaces (k : Nat) : ∀ d ∈ (List.replicate k ' ').head?, d = ' ' := fun d hd =>
    List.eq_of_mem_replicate (List.mem_of_mem_head? hd)
  exact (append_inj_of_not_mem hcs hds (hspaces _) (hspaces _) h).1

/-- A number is written with digits. -/
theorem isDigit_of_mem_decimal (h : c ∈ decimal n) : c.isDigit = true :=
  Nat.isDigit_of_mem_toDigits (by decide) (by decide) h

/-- What is no digit does not occur in a number. -/
theorem not_mem_decimal (hc : c.isDigit = false) : c ∉ decimal n := fun h =>
  Bool.false_ne_true (hc.symm.trans (isDigit_of_mem_decimal h))

/-- A number is told by its digits. -/
theorem decimal_inj : decimal m = decimal n ↔ m = n := by
  refine ⟨fun h => ?_, congrArg decimal⟩
  have hread (k : Nat) : Nat.ofDigitChars 10 (decimal k) 0 = k :=
    Nat.ofDigitChars_toDigits (by decide) (by decide)
  rw [← hread m, h, hread n]

/-- An octet is written with three digits at most. -/
theorem length_decimal_octet_le (o : UInt8) : (decimal o.toNat).length ≤ 3 :=
  (Nat.length_toDigits_le_iff (by decide) (by decide)).mpr (Nat.lt_trans o.toNat_lt (by decide))

end Text

open Text

namespace Address

/-- An address is written as four numbers with dots between them. -/
theorem chars_eq (a : Address) :
    a.chars = decimal a.a.toNat ++ '.' :: (decimal a.b.toNat ++ '.' :: (decimal a.c.toNat ++ '.' ::
      decimal a.d.toNat)) := by
  simp [chars, octets, List.intercalate]

/-- An address takes fifteen characters at most. -/
theorem length_chars_le (a : Address) : a.chars.length ≤ 15 := by
  have ha := length_decimal_octet_le a.a
  have hb := length_decimal_octet_le a.b
  have hc := length_decimal_octet_le a.c
  have hd := length_decimal_octet_le a.d
  simp only [chars_eq, List.length_append, List.length_cons]
  omega

/-- There is no space in an address, so a space ends it. -/
theorem space_not_mem_chars (a : Address) : ' ' ∉ a.chars := by
  have hspace (o : UInt8) : ' ' ∉ decimal o.toNat := not_mem_decimal (by decide)
  simp [chars_eq, hspace]

/-- An address is told by its text: its numbers hold no point. -/
theorem chars_inj {a b : Address} : a.chars = b.chars ↔ a = b := by
  refine ⟨fun h => ?_, congrArg chars⟩
  have hpoint (o : UInt8) : '.' ∉ decimal o.toNat := not_mem_decimal (by decide)
  rw [chars_eq, chars_eq] at h
  obtain ⟨ha, h⟩ := append_cons_inj_of_not_mem (hpoint _) (hpoint _) h
  obtain ⟨hb, h⟩ := append_cons_inj_of_not_mem (hpoint _) (hpoint _) h
  obtain ⟨hc, hd⟩ := append_cons_inj_of_not_mem (hpoint _) (hpoint _) h
  simp only [decimal_inj, UInt8.toNat_inj] at ha hb hc hd
  cases a
  cases b
  simp_all

end Address

namespace Mac

/-- A link address takes seventeen characters. -/
theorem length_chars (m : Mac) : m.chars.length = 17 := by
  simp [chars, octets, List.intercalate, hexPair]

/-- There is no space in a link address. -/
theorem space_not_mem_chars (m : Mac) : ' ' ∉ m.chars := by
  have hdigit (n : Nat) : ' ' ≠ hexDigit n := by
    intro h
    have hvalue := hexValue?_hexDigit n
    rw [← h] at hvalue
    cases hvalue
  simp [chars, octets, List.intercalate, hexPair, hdigit]

/-- A link address is told by its text: it is read back from it. -/
theorem chars_inj {m m' : Mac} : m.chars = m'.chars ↔ m = m' := by
  refine ⟨fun h => ?_, congrArg chars⟩
  have hread (k : Mac) : read k.text = .ok k := by
    refine read_of_notates (notates_iff_respells.mpr ?_)
    rw [text, String.toList_ofList]
    exact List.forall₂_same.mpr fun _ _ => .inl rfl
  have hsame := hread m
  rw [text, h, ← text, hread m'] at hsame
  exact (Except.ok.inj hsame).symm

end Mac

namespace State

/-- A state takes ten characters at most. -/
theorem length_text_le (s : State) : s.text.toList.length ≤ 10 := by
  cases s <;> decide

/-- There is no space in a state, so a space ends it. -/
theorem space_not_mem_text (s : State) : ' ' ∉ s.text.toList := by
  cases s <;> decide

/-- Different states are written differently. -/
theorem text_inj {s s' : State} (h : s.text.toList = s'.text.toList) : s = s' := by
  cases s <;> cases s' <;> first | rfl | exact absurd h (by decide)

end State

namespace Row

variable {r r' : Row}

/-- What the column of the link address shows. -/
def macShown (r : Row) : List Char :=
  match r.mac? with
  | some mac => mac.chars
  | none => "(incomplete)".toList

/-- What the last column shows. -/
def mark (r : Row) : List Char := if r.isPermanent then "PERM".toList else []

/-- The note of the waiting packets, if there are any. -/
def pendingNote (r : Row) : List Char :=
  if 0 < r.pending then " queued=".toList ++ decimal r.pending else []

/-- The note of the probes sent, if there are any and the entry is not resolved. -/
def probesNote (r : Row) : List Char :=
  if 0 < r.probes ∧ !r.state.isResolved then " probes=".toList ++ decimal r.probes else []

/-- A line is four columns and two notes. -/
theorem chars_eq (r : Row) :
    r.chars = padded 15 r.address.chars ++ ' ' :: (padded 17 r.macShown ++ ' ' ::
      (padded 10 r.state.text.toList ++ ' ' :: (padded 4 r.mark ++
        (r.pendingNote ++ r.probesNote)))) := by
  simp only [chars, List.append_assoc, List.cons_append]
  rfl

/-- The column of the link address is wide enough. -/
theorem length_macShown_le (r : Row) : r.macShown.length ≤ 17 := by
  unfold macShown
  split
  · next mac _ => exact Nat.le_of_eq mac.length_chars
  · decide

/-- There is no space in what the column of the link address shows. -/
theorem space_not_mem_macShown (r : Row) : ' ' ∉ r.macShown := by
  unfold macShown
  split
  · next mac _ => exact mac.space_not_mem_chars
  · decide

/-- The column of the mark is wide enough. -/
theorem length_mark_le (r : Row) : r.mark.length ≤ 4 := by
  unfold mark
  split <;> decide

/-- There is no space in the mark. -/
theorem space_not_mem_mark (r : Row) : ' ' ∉ r.mark := by
  unfold mark
  split <;> decide

/-- The column of the link address tells the address, or that there is none. -/
theorem mac?_eq_of_macShown (h : r.macShown = r'.macShown) : r.mac? = r'.mac? := by
  -- what stands for no address is shorter than any
  have hnone (m : Mac) : m.chars ≠ "(incomplete)".toList := fun heq => by
    have hlength := m.length_chars
    rw [heq] at hlength
    exact absurd hlength (by decide)
  unfold macShown at h
  cases hr : r.mac? with
  | none =>
    cases hr' : r'.mac? with
    | none => rfl
    | some m' =>
      rw [hr, hr'] at h
      exact absurd h.symm (hnone m')
  | some m =>
    cases hr' : r'.mac? with
    | none =>
      rw [hr, hr'] at h
      exact absurd h (hnone m)
    | some m' =>
      rw [hr, hr'] at h
      rw [Mac.chars_inj.mp h]

/-- The mark tells permanent rows from others. -/
theorem isPermanent_eq_of_mark (h : r.mark = r'.mark) : r.isPermanent = r'.isPermanent := by
  unfold mark at h
  cases hr : r.isPermanent <;> cases hr' : r'.isPermanent <;> simp [hr, hr'] at h ⊢

/-- Each note is set off by a space. -/
theorem head?_probesNote (r : Row) : ∀ c ∈ r.probesNote.head?, c = ' ' := by
  unfold probesNote
  split
  · exact fun c hc => (Option.some.inj hc).symm
  · exact nofun

/-- The names of the notes tell them apart. -/
theorem append_pendingNote_ne (h : 0 < r.pending) (r' : Row) (cs : List Char) :
    r.pendingNote ++ cs ≠ r'.probesNote := by
  rw [pendingNote, if_pos h]
  unfold probesNote
  split
  · intro heq
    have hsecond : 'q' = 'p' := Option.some.inj (congrArg (fun ds : List Char => ds[1]?) heq)
    exact absurd hsecond (by decide)
  · exact nofun

/-- The notes tell the number of waiting packets: its digits end where the other note begins. -/
theorem pending_eq_of_notes (h : r.pendingNote ++ r.probesNote = r'.pendingNote ++ r'.probesNote) :
    r.pending = r'.pending ∧ r.probesNote = r'.probesNote := by
  have hnone {x : Row} (hx : ¬0 < x.pending) : x.pendingNote = [] := if_neg hx
  by_cases hr : 0 < r.pending
  · by_cases hr' : 0 < r'.pending
    · rw [pendingNote, pendingNote, if_pos hr, if_pos hr', List.append_assoc,
        List.append_assoc] at h
      obtain ⟨hdigits, hrest⟩ := append_inj_of_not_mem (not_mem_decimal rfl) (not_mem_decimal rfl)
        r.head?_probesNote r'.head?_probesNote (List.append_cancel_left h)
      exact ⟨decimal_inj.mp hdigits, hrest⟩
    · rw [hnone hr', List.nil_append] at h
      exact absurd h (append_pendingNote_ne hr r' _)
  · by_cases hr' : 0 < r'.pending
    · rw [hnone hr, List.nil_append] at h
      exact absurd h.symm (append_pendingNote_ne hr' r _)
    · rw [hnone hr, hnone hr'] at h
      exact ⟨by omega, h⟩

/-- In a state without a link address the note tells the number of probes. -/
theorem probes_eq_of_note (hstate : r.state = r'.state) (hr : r.state.isResolved = false)
    (h : r.probesNote = r'.probesNote) : r.probes = r'.probes := by
  have hshown {x : Row} (hx : x.state.isResolved = false) :
      x.probesNote = if 0 < x.probes then " probes=".toList ++ decimal x.probes else [] := by
    simp only [probesNote, hx, Bool.not_false, and_true]
  rw [hshown hr, hshown (hstate ▸ hr)] at h
  split at h
  · split at h
    · exact decimal_inj.mp (List.append_cancel_left h)
    · cases h
  · split at h
    · cases h
    · omega

/-- Where the columns stand: at the same places in every line, since each column is full. -/
theorem columns (r : Row) :
    padded 17 r.macShown <+: r.chars.drop 16 ∧
      padded 10 r.state.text.toList <+: r.chars.drop 34 ∧ padded 4 r.mark <+: r.chars.drop 45 := by
  have hbehind {front rest : List Char} {k : Nat} (hfront : front.length = k) :
      (front ++ ' ' :: rest).drop (k + 1) = rest := by
    rw [List.append_cons, List.drop_left' (by rw [List.length_append, hfront]; rfl)]
  have hmac : r.chars.drop 16 = padded 17 r.macShown ++ ' ' :: (padded 10 r.state.text.toList ++
      ' ' :: (padded 4 r.mark ++ (r.pendingNote ++ r.probesNote))) := by
    rw [chars_eq]
    exact hbehind (length_padded r.address.length_chars_le)
  have hstate : r.chars.drop 34 = padded 10 r.state.text.toList ++
      ' ' :: (padded 4 r.mark ++ (r.pendingNote ++ r.probesNote)) := by
    calc
      r.chars.drop 34 = (r.chars.drop 16).drop 18 := by rw [List.drop_drop]
      _ = _ := by rw [hmac]; exact hbehind (length_padded r.length_macShown_le)
  have hmark : r.chars.drop 45 = padded 4 r.mark ++ (r.pendingNote ++ r.probesNote) := by
    calc
      r.chars.drop 45 = (r.chars.drop 34).drop 11 := by rw [List.drop_drop]
      _ = _ := by rw [hstate]; exact hbehind (length_padded r.state.length_text_le)
  rw [hmac, hstate, hmark]
  exact ⟨List.prefix_append _ _, List.prefix_append _ _, List.prefix_append _ _⟩

/-- Equal lines have equal columns and equal notes. -/
theorem columns_eq_of_chars (h : r.chars = r'.chars) :
    r.address.chars = r'.address.chars ∧ r.macShown = r'.macShown ∧
      r.state.text.toList = r'.state.text.toList ∧ r.mark = r'.mark ∧
      r.pendingNote ++ r.probesNote = r'.pendingNote ++ r'.probesNote := by
  have hwidth {width : Nat} {cs ds : List Char} (hcs : cs.length ≤ width)
      (hds : ds.length ≤ width) :
      (padded width cs).length = (padded width ds).length :=
    (length_padded hcs).trans (length_padded hds).symm
  rw [chars_eq, chars_eq] at h
  obtain ⟨haddress, h⟩ := List.append_inj h
    (hwidth r.address.length_chars_le r'.address.length_chars_le)
  obtain ⟨hmac, h⟩ := List.append_inj (List.cons_eq_cons.mp h).2
    (hwidth r.length_macShown_le r'.length_macShown_le)
  obtain ⟨hstate, h⟩ := List.append_inj (List.cons_eq_cons.mp h).2
    (hwidth r.state.length_text_le r'.state.length_text_le)
  obtain ⟨hmark, hnotes⟩ := List.append_inj (List.cons_eq_cons.mp h).2
    (hwidth r.length_mark_le r'.length_mark_le)
  exact ⟨padded_inj r.address.space_not_mem_chars r'.address.space_not_mem_chars haddress,
    padded_inj r.space_not_mem_macShown r'.space_not_mem_macShown hmac,
    padded_inj r.state.space_not_mem_text r'.state.space_not_mem_text hstate,
    padded_inj r.space_not_mem_mark r'.space_not_mem_mark hmark, hnotes⟩

/-- Rows with the same line have the same address, the same link address or none, the same state,
the same mark and as many waiting packets, and as many probes if the state is one without a link
address. In every line the columns behind the address begin with the characters numbered 16, 34 and
45, counted from zero, and are 17, 10 and 4 characters wide. -/
theorem text_tells :
    (∀ r r' : Row, r.text = r'.text →
      r.address = r'.address ∧ r.mac? = r'.mac? ∧ r.state = r'.state ∧
        r.isPermanent = r'.isPermanent ∧ r.pending = r'.pending ∧
        (r.state = .incomplete ∨ r.state = .failed → r.probes = r'.probes)) ∧
      ∀ r : Row, padded 17 r.macShown <+: r.text.toList.drop 16 ∧
        padded 10 r.state.text.toList <+: r.text.toList.drop 34 ∧
        padded 4 r.mark <+: r.text.toList.drop 45 := by
  have hchars (r : Row) : r.text.toList = r.chars := String.toList_ofList
  refine ⟨fun r r' h => ?_, fun r => by rw [hchars r]; exact r.columns⟩
  have hsame : r.chars = r'.chars := by rw [← hchars r, h, hchars r']
  obtain ⟨haddress, hmac, htext, hmark, hnotes⟩ := columns_eq_of_chars hsame
  obtain ⟨hpending, hprobes⟩ := pending_eq_of_notes hnotes
  have hstate := State.text_inj htext
  refine ⟨Address.chars_inj.mp haddress, mac?_eq_of_macShown hmac, hstate,
    isPermanent_eq_of_mark hmark, hpending, fun hopen => probes_eq_of_note hstate ?_ hprobes⟩
  rcases hopen with hopen | hopen <;> rw [hopen] <;> rfl

/-- Rows of two incarnations of an entry can have the same line: the generation is not shown. -/
theorem text_tells_of_incarnations :
    let r : Row := ⟨⟨10, 0, 0, 1⟩, none, .incomplete, false, 1, 2, 7⟩
    let r' : Row := { r with generation := 8 }
    r.text = "10.0.0.1        (incomplete)      INCOMPLETE      queued=2 probes=1" ∧
      r.text = r'.text ∧ r ≠ r' ∧ r.pending = r'.pending ∧ r.probes = r'.probes := by
  intro r r'
  have hsame : r.text = r'.text := rfl
  obtain ⟨_, _, _, _, hpending, hprobes⟩ := text_tells.1 r r' hsame
  exact ⟨by decide +kernel, hsame, by decide, hpending, hprobes (.inl rfl)⟩

end Row

end Neighbor

import Mathlib.Data.List.Forall2
import Neighbor.Mac.Text

/-!
# The notation of link addresses

A link address is noted as six groups of two hexadecimal digits with a colon or a hyphen between any
two of them (`Mac.Notates`). A text in this notation is read as the address it notes. The reader
takes a plus sign and one digit for a group too (`Mac.signed_group_read`); of the texts without a
plus sign it accepts those in the notation only.

The texts in the notation are those that differ from the written form in the case of letters and in
hyphens for colons (`Mac.notates_iff_respells`), so the written form is read back however it is
respelled.
-/

namespace Neighbor

namespace Text

/-- The hexadecimal digits with small letters, each at the place of its value. -/
def smallDigits : List Char :=
  ['0', '1', '2', '3', '4', '5', '6', '7', '8', '9', 'a', 'b', 'c', 'd', 'e', 'f']

/-- The hexadecimal digits with capital letters, each at the place of its value. -/
def capitalDigits : List Char :=
  ['0', '1', '2', '3', '4', '5', '6', '7', '8', '9', 'A', 'B', 'C', 'D', 'E', 'F']

/-- The character is a hexadecimal digit of value `v`, in either case. -/
def IsHexDigit (c : Char) (v : Nat) : Prop :=
  smallDigits[v]? = some c ∨ capitalDigits[v]? = some c

instance (c : Char) (v : Nat) : Decidable (IsHexDigit c v) := inferInstanceAs (Decidable (_ ∨ _))

/-- A hexadecimal digit is less than sixteen. -/
theorem IsHexDigit.lt {c : Char} {v : Nat} (h : IsHexDigit c v) : v < 16 := by
  rcases h with h | h
  · exact (List.getElem?_eq_some_iff.mp h).1
  · exact (List.getElem?_eq_some_iff.mp h).1

/-- What holds of the sixteen digits in both cases holds of every digit. -/
theorem IsHexDigit.induction {P : Char → Nat → Prop} (hsmall : ∀ v : Fin 16, P smallDigits[v] v)
    (hcapital : ∀ v : Fin 16, P capitalDigits[v] v) {c : Char} {v : Nat} (h : IsHexDigit c v) :
    P c v := by
  rcases h with h | h
  · obtain ⟨hv, rfl⟩ := List.getElem?_eq_some_iff.mp h
    exact hsmall ⟨v, hv⟩
  · obtain ⟨hv, rfl⟩ := List.getElem?_eq_some_iff.mp h
    exact hcapital ⟨v, hv⟩

/-- Only characters of the ASCII range are read as digits. -/
theorem toNat_lt_of_hexValue? {c : Char} {v : Nat} (h : hexValue? c = some v) : c.toNat < 128 := by
  have hbelow (top : Char) (htop : top.toNat < 128) (hc : c ≤ top) : c.toNat < 128 :=
    Nat.lt_of_le_of_lt hc htop
  unfold hexValue? at h
  split at h
  · next hrange => exact hbelow '9' (by decide) hrange.2
  · split at h
    · next hrange => exact hbelow 'f' (by decide) hrange.2
    · split at h
      · next hrange => exact hbelow 'F' (by decide) hrange.2
      · cases h

/-- A character is read as a digit exactly if it is one. -/
theorem hexValue?_eq_some_iff {c : Char} {v : Nat} : hexValue? c = some v ↔ IsHexDigit c v := by
  constructor
  · intro h
    have key : ∀ n : Fin 128, ∀ v ∈ hexValue? (Char.ofNat n), IsHexDigit (Char.ofNat n) v := by
      decide +kernel
    have hc := key ⟨c.toNat, toNat_lt_of_hexValue? h⟩
    rw [Char.ofNat_toNat] at hc
    exact hc v h
  · exact IsHexDigit.induction (P := fun c v => hexValue? c = some v) (by decide) (by decide)

end Text

namespace Mac

open Text

/-- The group is two hexadecimal digits of the value of the octet. -/
def IsPair (group : List Char) (o : UInt8) : Prop :=
  ∃ hi lo h l, group = [hi, lo] ∧ IsHexDigit hi h ∧ IsHexDigit lo l ∧ o.toNat = 16 * h + l

/-- The group is a plus sign and one hexadecimal digit of the value of the octet. -/
def IsSigned (group : List Char) (o : UInt8) : Prop :=
  ∃ digit v, group = ['+', digit] ∧ IsHexDigit digit v ∧ o.toNat = v

/-- The groups stand one after the other, with a colon or a hyphen between any two. -/
inductive Joins : List (List Char) → List Char → Prop
  | last (g : List Char) : Joins [g] g
  | next (g : List Char) {c : Char} {gs : List (List Char)} {cs : List Char}
      (hc : c = ':' ∨ c = '-') (h : Joins gs cs) : Joins (g :: gs) (g ++ c :: cs)

/-- The characters are one group for each octet of `m`, as `P` says. -/
def Grouped (P : List Char → UInt8 → Prop) (cs : List Char) (m : Mac) : Prop :=
  ∃ gs, Joins gs cs ∧ List.Forall₂ P gs m.octets

/-- The notation of link addresses: six groups of two hexadecimal digits. -/
def Notates (cs : List Char) (m : Mac) : Prop := Grouped IsPair cs m

/-- Groups are separated by a colon or a hyphen. -/
theorem isSeparator_iff {c : Char} : isSeparator c = true ↔ c = ':' ∨ c = '-' := by
  simp [isSeparator]

/-- A group is read exactly if it is two digits or a plus sign and a digit. -/
theorem group?_eq_some_iff {g : List Char} {o : UInt8} :
    group? g = some o ↔ IsPair g o ∨ IsSigned g o := by
  constructor
  · intro h
    unfold group? at h
    split at h
    · next hi lo =>
      split at h
      · next x y hhi hlo =>
        have hx := (hexValue?_eq_some_iff.mp hhi).lt
        have hy := (hexValue?_eq_some_iff.mp hlo).lt
        cases h
        refine .inl
          ⟨hi, lo, x, y, rfl, hexValue?_eq_some_iff.mp hhi, hexValue?_eq_some_iff.mp hlo, ?_⟩
        rw [UInt8.toNat_ofNat']
        omega
      · next y hhi hlo =>
        have hy := (hexValue?_eq_some_iff.mp hlo).lt
        split at h
        · next hplus =>
          cases h
          refine .inr ⟨lo, y, by rw [hplus], hexValue?_eq_some_iff.mp hlo, ?_⟩
          rw [UInt8.toNat_ofNat']
          omega
        · cases h
      · cases h
    · cases h
  · rintro (⟨hi, lo, x, y, rfl, hhi, hlo, hvalue⟩ | ⟨digit, v, rfl, hdigit, hvalue⟩)
    · simp only [group?, hexValue?_eq_some_iff.mpr hhi, hexValue?_eq_some_iff.mpr hlo, ← hvalue,
        UInt8.ofNat_toNat]
    · have hplus : hexValue? '+' = none := by decide
      simp only [group?, hplus, hexValue?_eq_some_iff.mpr hdigit, ← hvalue, UInt8.ofNat_toNat,
        if_true]

/-- No separator is part of a group that is read. -/
theorem not_separator_of_group? {g : List Char} {o : UInt8} (h : group? g = some o) :
    ∀ c ∈ g, isSeparator c = false := by
  have hdigit {c : Char} {v : Nat} (hc : IsHexDigit c v) : isSeparator c = false :=
    hc.induction (P := fun c _ => isSeparator c = false) (by decide) (by decide)
  rcases group?_eq_some_iff.mp h with ⟨hi, lo, x, y, rfl, hhi, hlo, _⟩ | ⟨digit, v, rfl, hv, _⟩
  · simp [hdigit hhi, hdigit hlo]
  · simp [hdigit hv, show isSeparator '+' = false by decide]

/-- Every text has a group, if an empty one. -/
theorem groups_ne_nil (cs : List Char) : groups cs ≠ [] := by
  cases cs with
  | nil => exact nofun
  | cons c rest =>
    unfold groups
    split
    · exact nofun
    · split <;> exact nofun

/-- A separator begins a new group, any other character belongs to the first one. -/
theorem groups_cons (c : Char) (rest : List Char) :
    groups (c :: rest) =
      if isSeparator c then [] :: groups rest else (groups rest).modifyHead (c :: ·) := by
  rw [groups]
  split
  · next hnil => exact absurd hnil (groups_ne_nil rest)
  · next g gs hgroups => rw [hgroups, List.modifyHead_cons]

/-- Characters that are no separators belong to the first group. -/
theorem groups_append {g rest : List Char} (h : ∀ c ∈ g, isSeparator c = false) :
    groups (g ++ rest) = (groups rest).modifyHead (g ++ ·) := by
  induction g with
  | nil => exact (congrFun List.modifyHead_id (groups rest)).symm
  | cons c g ih =>
    rw [List.cons_append, groups_cons, h c List.mem_cons_self, if_neg nofun,
      ih fun d hd => h d (List.mem_cons_of_mem c hd), List.modifyHead_modifyHead]
    rfl

/-- The groups of a text stand in it one after the other. -/
theorem joins_groups (cs : List Char) : Joins (groups cs) cs := by
  induction cs with
  | nil => exact .last []
  | cons c rest ih =>
    rw [groups_cons]
    split
    · next hc => exact .next [] (isSeparator_iff.mp hc) ih
    · generalize groups rest = gs at ih ⊢
      cases ih with
      | last => exact .last (c :: rest)
      | next g hd hrest => exact .next (c :: g) hd hrest

/-- A text splits into the groups it is made of, if none of them holds a separator. -/
theorem groups_of_joins {gs : List (List Char)} {cs : List Char} (h : Joins gs cs)
    (hfree : ∀ g ∈ gs, ∀ c ∈ g, isSeparator c = false) : groups cs = gs := by
  induction h with
  | last g =>
    have hsplit : groups (g ++ []) = _ := groups_append (hfree g List.mem_cons_self)
    rw [List.append_nil] at hsplit
    rw [hsplit, groups, List.modifyHead_cons, List.append_nil]
  | next g hc hrest ih =>
    rw [groups_append (hfree g List.mem_cons_self), groups_cons, isSeparator_iff.mpr hc, if_pos rfl,
      ih fun g' hg' => hfree g' (List.mem_cons_of_mem g hg'), List.modifyHead_cons,
      List.append_nil]

/-- All groups are read exactly if each is read. -/
theorem mapM_group?_eq_some_iff {gs : List (List Char)} {os : List UInt8} :
    gs.mapM group? = some os ↔ List.Forall₂ (fun g o => group? g = some o) gs os := by
  induction gs generalizing os with
  | nil => simp [eq_comm]
  | cons g gs ih =>
    rw [List.mapM_cons, List.forall₂_cons_left_iff]
    constructor
    · intro h
      obtain ⟨o, hg, hrest⟩ := Option.bind_eq_some_iff.mp h
      obtain ⟨os', hgs, hos⟩ := Option.bind_eq_some_iff.mp hrest
      exact ⟨o, os', hg, ih.mp hgs, (Option.some.inj hos).symm⟩
    · rintro ⟨o, os', hg, hgs, rfl⟩
      rw [hg, ih.mpr hgs]
      rfl

/-- Readable groups are those into which their text splits. -/
theorem groups_of_readable {gs : List (List Char)} {cs : List Char} {os : List UInt8}
    (hjoins : Joins gs cs) (hread : List.Forall₂ (fun g o => group? g = some o) gs os) :
    groups cs = gs := by
  have hboth := hread.imp fun g o hg => And.intro (not_separator_of_group? hg) hg
  exact groups_of_joins hjoins ((List.forall₂_and_left gs os).mp hboth).1

/-- Characters are read exactly if they are one readable group for each octet. -/
theorem ofChars?_eq_some_iff {cs : List Char} {m : Mac} :
    ofChars? cs = some m ↔ Grouped (fun g o => IsPair g o ∨ IsSigned g o) cs m := by
  unfold ofChars? Grouped
  simp only [← group?_eq_some_iff]
  constructor
  · intro h
    obtain ⟨os, hos, hm⟩ := Option.bind_eq_some_iff.mp h
    rw [ofOctets?_eq_some_iff] at hm
    exact ⟨groups cs, joins_groups cs, hm ▸ mapM_group?_eq_some_iff.mp hos⟩
  · rintro ⟨gs, hjoins, hread⟩
    rw [groups_of_readable hjoins hread, mapM_group?_eq_some_iff.mpr hread]
    exact ofOctets?_octets m

/-- A text is read if its characters are those of a link address. -/
theorem read_eq_ok_iff {s : String} {m : Mac} : read s = .ok m ↔ ofChars? s.toList = some m := by
  unfold read
  cases ofChars? s.toList <;> simp

/-- What notes an address is read as it. -/
theorem read_of_notates {s : String} {m : Mac} (h : Notates s.toList m) : read s = .ok m := by
  obtain ⟨gs, hjoins, hpairs⟩ := h
  rw [read_eq_ok_iff, ofChars?_eq_some_iff]
  exact ⟨gs, hjoins, hpairs.imp fun _ _ => .inl⟩

/-- The characters of a text are those of its groups and separators. -/
theorem Joins.mem_cases {gs : List (List Char)} {cs : List Char} {c : Char} (h : Joins gs cs)
    (hc : c ∈ cs) : isSeparator c = true ∨ ∃ g ∈ gs, c ∈ g := by
  induction h with
  | last g => exact .inr ⟨g, List.mem_cons_self, hc⟩
  | next g hseparator _ ih =>
    rcases List.mem_append.mp hc with hfirst | hlater
    · exact .inr ⟨g, List.mem_cons_self, hfirst⟩
    · rcases List.mem_cons.mp hlater with rfl | hrest
      · exact .inl (isSeparator_iff.mpr hseparator)
      · obtain hsep | ⟨g', hg', hmem⟩ := ih hrest
        · exact .inl hsep
        · exact .inr ⟨g', List.mem_cons_of_mem g hg', hmem⟩

/-- The characters of a group are characters of the text. -/
theorem Joins.mem {gs : List (List Char)} {cs g : List Char} {c : Char} (h : Joins gs cs)
    (hg : g ∈ gs) (hc : c ∈ g) : c ∈ cs := by
  induction h with
  | last => rwa [← List.mem_singleton.mp hg]
  | next g' _ _ ih =>
    rcases List.mem_cons.mp hg with rfl | hg
    · exact List.mem_append_left _ hc
    · exact List.mem_append_right _ (List.mem_cons_of_mem _ (ih hg))

/-- There is no plus sign in a pair of digits. -/
theorem IsPair.plus_not_mem {g : List Char} {o : UInt8} (h : IsPair g o) : '+' ∉ g := by
  have hdigit {c : Char} {v : Nat} (hc : IsHexDigit c v) : '+' ≠ c :=
    hc.induction (P := fun c _ => '+' ≠ c) (by decide) (by decide)
  obtain ⟨hi, lo, x, y, rfl, hhi, hlo, _⟩ := h
  simp [hdigit hhi, hdigit hlo]

/-- There is no plus sign in the notation. -/
theorem plus_not_mem_of_notates {cs : List Char} {m : Mac} (h : Notates cs m) : '+' ∉ cs := by
  obtain ⟨gs, hjoins, hpairs⟩ := h
  have hboth := hpairs.imp fun _ _ hpair => And.intro hpair.plus_not_mem hpair
  have hfree := ((List.forall₂_and_left gs _).mp hboth).1
  intro hplus
  rcases hjoins.mem_cases hplus with hseparator | ⟨g, hg, hmem⟩
  · cases hseparator
  · exact hfree g hg hmem

/-- The reader accepts exactly six groups with a colon or a hyphen between any two, each of them two
hexadecimal digits or a plus sign and one digit. The texts in the notation of link addresses are
those among them that hold no plus sign. -/
theorem reads_grouped (s : String) (m : Mac) :
    (read s = .ok m ↔ Grouped (fun g o => IsPair g o ∨ IsSigned g o) s.toList m) ∧
      (Notates s.toList m ↔ read s = .ok m ∧ '+' ∉ s.toList) := by
  have hgroups : read s = .ok m ↔ Grouped (fun g o => IsPair g o ∨ IsSigned g o) s.toList m :=
    read_eq_ok_iff.trans ofChars?_eq_some_iff
  refine ⟨hgroups, fun h => ⟨read_of_notates h, plus_not_mem_of_notates h⟩, ?_⟩
  rintro ⟨hread, hplus⟩
  obtain ⟨gs, hjoins, hread⟩ := hgroups.mp hread
  have hunsigned : ∀ g ∈ gs, '+' ∉ g := fun g hg hc => hplus (hjoins.mem hg hc)
  refine ⟨gs, hjoins, ((List.forall₂_and_left gs _).mpr ⟨hunsigned, hread⟩).imp ?_⟩
  rintro g o ⟨hfree, hpair | ⟨digit, v, rfl, _⟩⟩
  · exact hpair
  · exact absurd List.mem_cons_self hfree

example : read "00-1a:2B-cc:Dd:fF" = .ok ⟨0x00, 0x1a, 0x2b, 0xcc, 0xdd, 0xff⟩ := by
  decide +kernel

/-- A plus sign and a digit are read as a group, although they are not two digits. -/
theorem signed_group_read :
    read "+1:22:33:44:55:66" = .ok ⟨0x01, 0x22, 0x33, 0x44, 0x55, 0x66⟩ ∧
      ¬∃ m, Notates "+1:22:33:44:55:66".toList m := by
  refine ⟨by decide +kernel, fun ⟨m, hnotates⟩ => plus_not_mem_of_notates hnotates ?_⟩
  decide +kernel

/-- What may stand for a character of the written form: the character itself, a capital letter for a
small one, a hyphen for a colon. -/
def Respells (c d : Char) : Prop := d = c ∨ d = c.toUpper ∨ c = ':' ∧ d = '-'

instance (c d : Char) : Decidable (Respells c d) := inferInstanceAs (Decidable (_ ∨ _ ∨ _))

/-- A colon stands for itself, and a hyphen may stand for it. -/
theorem respells_colon_iff {d : Char} : Respells ':' d ↔ d = ':' ∨ d = '-' := by
  have hcapital : ':'.toUpper = ':' := by decide
  simp [Respells, hcapital]

/-- What may stand for the written digit is a digit of the same value. -/
theorem respells_hexDigit_iff {n : Nat} {d : Char} :
    Respells (hexDigit n) d ↔ IsHexDigit d (n % 16) := by
  have hwritten : hexDigit n = hexDigit (n % 16) := by simp [hexDigit]
  rw [hwritten]
  constructor
  · have key : ∀ v : Fin 16, IsHexDigit (hexDigit v) v ∧ IsHexDigit (hexDigit v).toUpper v ∧
        hexDigit v ≠ ':' := by decide
    obtain ⟨hsmall, hcapital, hcolon⟩ := key ⟨n % 16, Nat.mod_lt _ (by decide)⟩
    rintro (rfl | rfl | ⟨hsame, _⟩)
    · exact hsmall
    · exact hcapital
    · exact absurd hsame hcolon
  · exact IsHexDigit.induction (P := fun d v => Respells (hexDigit v) d) (by decide) (by decide)

/-- A group is two digits of the value of an octet exactly if it may stand for the written octet. -/
theorem isPair_iff {g : List Char} {o : UInt8} :
    IsPair g o ↔ List.Forall₂ Respells (hexPair o) g := by
  have ho := o.toNat_lt
  constructor
  · rintro ⟨hi, lo, h, l, rfl, hhi, hlo, hvalue⟩
    have hh := hhi.lt
    have hl := hlo.lt
    refine .cons (respells_hexDigit_iff.mpr ?_) (.cons (respells_hexDigit_iff.mpr ?_) .nil)
    · rwa [show o.toNat / 16 % 16 = h by omega]
    · rwa [show o.toNat % 16 = l by omega]
  · intro h
    obtain ⟨hi, rest, hhi, hrest, rfl⟩ := List.forall₂_cons_left_iff.mp h
    obtain ⟨lo, rest', hlo, hnil, rfl⟩ := List.forall₂_cons_left_iff.mp hrest
    rw [List.forall₂_nil_left_iff] at hnil
    subst hnil
    refine ⟨hi, lo, _, _, rfl, respells_hexDigit_iff.mp hhi, respells_hexDigit_iff.mp hlo, ?_⟩
    omega

/-- Pairs with separators between them may stand for the written octets. -/
theorem respells_of_joins {gs : List (List Char)} {cs : List Char} {os : List UInt8}
    (hjoins : Joins gs cs) (hpairs : List.Forall₂ IsPair gs os) :
    List.Forall₂ Respells (List.intercalate [':'] (os.map hexPair)) cs := by
  induction hjoins generalizing os with
  | last g =>
    cases hpairs with
    | cons hpair hnil =>
      cases hnil
      rw [List.map_singleton, List.intercalate_singleton]
      exact isPair_iff.mp hpair
  | next g hc hrest ih =>
    cases hpairs with
    | @cons _ o _ os hpair hpairs =>
      have htail := ih hpairs
      -- there is another group, so a colon is written after this one
      cases hpairs with
      | nil => cases hrest
      | cons =>
        rw [List.map_cons, List.map_cons, List.intercalate_cons_cons, List.append_assoc]
        exact List.rel_append (isPair_iff.mp hpair) (.cons (respells_colon_iff.mpr hc) htail)

/-- What may stand for the written octets is pairs with separators between them. -/
theorem joins_of_respells {os : List UInt8} {cs : List Char} (hos : os ≠ [])
    (h : List.Forall₂ Respells (List.intercalate [':'] (os.map hexPair)) cs) :
    ∃ gs, Joins gs cs ∧ List.Forall₂ IsPair gs os := by
  induction os generalizing cs with
  | nil => exact absurd rfl hos
  | cons o os ih =>
    cases os with
    | nil =>
      rw [List.map_singleton, List.intercalate_singleton] at h
      exact ⟨[cs], .last cs, .cons (isPair_iff.mpr h) .nil⟩
    | cons o' os =>
      rw [List.map_cons, List.map_cons, List.intercalate_cons_cons, List.append_assoc] at h
      obtain ⟨hi, _, hhi, hafter, rfl⟩ := List.forall₂_cons_left_iff.mp h
      obtain ⟨lo, _, hlo, hfrom, rfl⟩ := List.forall₂_cons_left_iff.mp hafter
      obtain ⟨c, rest, hc, hrest, rfl⟩ := List.forall₂_cons_left_iff.mp hfrom
      obtain ⟨gs, hjoins, hpairs⟩ := ih (List.cons_ne_nil o' os) hrest
      have hpair : IsPair [hi, lo] o := isPair_iff.mpr (.cons hhi (.cons hlo .nil))
      exact ⟨[hi, lo] :: gs, .next [hi, lo] (respells_colon_iff.mp hc) hjoins, .cons hpair hpairs⟩

/-- The texts that note an address are those that may stand for its written form. -/
theorem notates_iff_respells {m : Mac} {cs : List Char} :
    Notates cs m ↔ List.Forall₂ Respells m.chars cs :=
  ⟨fun ⟨_, hjoins, hpairs⟩ => respells_of_joins hjoins hpairs, joins_of_respells nofun⟩

/-- An address is read back from its written form, also if letters in it are capital and colons in
it are hyphens, and no two addresses have the same written form. -/
theorem respelled_text_read :
    (∀ (m : Mac) (s : String), List.Forall₂ Respells m.text.toList s.toList → read s = .ok m) ∧
      (∀ m : Mac, read m.text = .ok m) ∧ Function.Injective text := by
  have hrespelled (m : Mac) (s : String) (h : List.Forall₂ Respells m.text.toList s.toList) :
      read s = .ok m := by
    rw [text, String.toList_ofList] at h
    exact read_of_notates (notates_iff_respells.mpr h)
  have hback (m : Mac) : read m.text = .ok m :=
    hrespelled m m.text (List.forall₂_same.mpr fun _ _ => .inl rfl)
  refine ⟨hrespelled, hback, fun m m' hsame => ?_⟩
  have hread := hback m
  rw [hsame, hback m'] at hread
  exact (Except.ok.inj hread).symm

/-- Some letters may be capital and some colons hyphens, whatever the others are. -/
theorem respelled_text_read_of_mixed :
    let m : Mac := ⟨0xde, 0xad, 0xbe, 0xef, 0x00, 0x1a⟩
    List.Forall₂ Respells m.text.toList "De-aD:BE:eF-00-1A".toList ∧
      read "De-aD:BE:eF-00-1A" = .ok m := by
  intro m
  have hrespells : List.Forall₂ Respells m.text.toList "De-aD:BE:eF-00-1A".toList := by
    decide +kernel
  exact ⟨hrespells, respelled_text_read.1 m _ hrespells⟩

end Mac

end Neighbor

import Mathlib.Tactic.SplitIfs
import Stratum.Text.Utf8

/-!
# UTF-8 and its texts

The bytes that spell a code point are told by the table of well-formed sequences. Every character is
spelled by its bytes and by no others, so that decoding undoes encoding, and encoding decoding, and
decoding fails where the bytes are not made of such spellings (`decode_eq_ok_iff`,
`decode_eq_error_iff`). What the table leaves out of all bytes that have the form of a number are
overlong forms, surrogates and what is beyond the last code point (`spells_iff_forms`).
-/

namespace Stratum.Text.Utf8

/-! ## Spellings -/

/-- A byte that a character may go on with. -/
def IsTail (b : UInt8) : Prop := 0x80 ≤ b.toNat ∧ b.toNat ≤ 0xbf

/-- Bytes spell a code point. The second byte is bounded after four of the first bytes: from below
where it would be an overlong form, from above where it would be a surrogate or beyond the last code
point. -/
inductive Spells : List UInt8 → Nat → Prop
  | one {a : UInt8} (ha : a.toNat < 0x80) : Spells [a] a.toNat
  | two {a b : UInt8} (ha : 0xc2 ≤ a.toNat ∧ a.toNat ≤ 0xdf) (hb : IsTail b) :
      Spells [a, b] ((a.toNat - 0xc0) * 0x40 + (b.toNat - 0x80))
  | three {a b c : UInt8} (ha : 0xe0 ≤ a.toNat ∧ a.toNat ≤ 0xef) (hb : IsTail b)
      (hoverlong : a.toNat = 0xe0 → 0xa0 ≤ b.toNat) (hsurrogate : a.toNat = 0xed → b.toNat ≤ 0x9f)
      (hc : IsTail c) :
      Spells [a, b, c]
        (((a.toNat - 0xe0) * 0x40 + (b.toNat - 0x80)) * 0x40 + (c.toNat - 0x80))
  | four {a b c d : UInt8} (ha : 0xf0 ≤ a.toNat ∧ a.toNat ≤ 0xf4) (hb : IsTail b)
      (hoverlong : a.toNat = 0xf0 → 0x90 ≤ b.toNat) (hbeyond : a.toNat = 0xf4 → b.toNat ≤ 0x8f)
      (hc : IsTail c) (hd : IsTail d) :
      Spells [a, b, c, d]
        ((((a.toNat - 0xf0) * 0x40 + (b.toNat - 0x80)) * 0x40 + (c.toNat - 0x80)) * 0x40 +
          (d.toNat - 0x80))

/-- Bytes are the UTF-8 of a text: spellings one after the other. -/
inductive Valid : List UInt8 → Prop
  | nil : Valid []
  | cons {w rest : List UInt8} {n : Nat} (hw : Spells w n) (hrest : Valid rest) : Valid (w ++ rest)

variable {w rest bs : List UInt8} {n : Nat} {c : Char} {cs : List Char}

/-- A number below 256 is the number of its byte. -/
theorem exists_byte (h : n < 0x100) : ∃ b : UInt8, n.toUInt8 = b ∧ b.toNat = n :=
  ⟨n.toUInt8, rfl, UInt8.toNat_ofNat_of_lt' h⟩

/-- The byte of a byte's number is the byte. -/
theorem toUInt8_eq {b : UInt8} (h : n = b.toNat) : n.toUInt8 = b := by
  rw [h]
  exact UInt8.ofNat_toNat

/-- A text is encoded character by character. -/
theorem encode_cons (c : Char) (cs : List Char) :
    encode (c :: cs) = encodeChar c ++ encode cs := List.flatMap_cons

/-- The bytes of a character are the ones that the standard library gives it. -/
theorem encodeChar_eq_utf8EncodeChar (c : Char) : encodeChar c = String.utf8EncodeChar c := by
  have hvalid : c.toNat.isValidChar := c.valid
  unfold Nat.isValidChar at hvalid
  have hval : c.val.toNat = c.toNat := rfl
  unfold encodeChar String.utf8EncodeChar
  dsimp only
  rw [hval]
  generalize c.toNat = n at hvalid
  have htail : ∀ m, m % 64 + 128 = 0x80 + m % 0x40 := fun m => Nat.add_comm _ _
  -- A first byte is taken modulo what it has room for, which a code point of its row stays below.
  have hlead₂ : n < 0x800 → n / 64 % 32 + 192 = 0xc0 + n / 0x40 := by omega
  have hlead₃ : n < 0x10000 → n / 4096 % 16 + 224 = 0xe0 + n / 0x1000 := by omega
  have hlead₄ : n / 262144 % 8 + 240 = 0xf0 + n / 0x40000 := by omega
  by_cases h₁ : n < 0x80
  · rw [if_pos h₁, if_pos (Nat.le_of_lt_succ h₁)]
  rw [if_neg h₁, if_neg (show ¬n ≤ 127 by omega)]
  by_cases h₂ : n < 0x800
  · rw [if_pos h₂, if_pos (Nat.le_of_lt_succ h₂), hlead₂ h₂, htail]
  rw [if_neg h₂, if_neg (show ¬n ≤ 2047 by omega)]
  by_cases h₃ : n < 0x10000
  · rw [if_pos h₃, if_pos (Nat.le_of_lt_succ h₃), hlead₃ h₃, htail, htail]
  · rw [if_neg h₃, if_neg (show ¬n ≤ 65535 by omega), hlead₄, htail, htail, htail]

/-- A text is encoded to the bytes that it is kept as. -/
theorem encode_toList (s : String) : encode s.toList = s.toUTF8.data.toList := by
  have hkept : s.toUTF8 = s.toList.utf8Encode := String.utf8Encode_toList.symm
  rw [hkept, List.utf8Encode, List.data_toByteArray, encode, funext encodeChar_eq_utf8EncodeChar]

/-- What is spelled is a code point of a character. -/
theorem Spells.isValidChar (h : Spells w n) : n.isValidChar := by
  unfold Nat.isValidChar
  cases h with
  | one ha => omega
  | two ha hb =>
    unfold IsTail at hb
    omega
  | three ha hb hoverlong hsurrogate hc =>
    unfold IsTail at hb hc
    omega
  | four ha hb hoverlong hbeyond hc hd =>
    unfold IsTail at hb hc hd
    omega

/-- The character of a code point that has one has its number. -/
theorem toNat_ofNat (h : n.isValidChar) : (Char.ofNat n).toNat = n := by
  rw [Char.ofNat, dif_pos h]
  rfl

/-- What is spelled is encoded as it is spelled. -/
theorem Spells.encodeChar_eq (h : Spells w n) : encodeChar (Char.ofNat n) = w := by
  unfold encodeChar
  rw [toNat_ofNat h.isValidChar]
  dsimp only
  -- The bounds of the second byte decide how many bytes the code point takes.
  cases h with
  | one ha => rw [if_pos ha, toUInt8_eq rfl]
  | @two a b ha hb =>
    unfold IsTail at hb
    rw [if_neg (by omega), if_pos (by omega)]
    have h₁ : 0xc0 + ((a.toNat - 0xc0) * 0x40 + (b.toNat - 0x80)) / 0x40 = a.toNat := by omega
    have h₂ : 0x80 + ((a.toNat - 0xc0) * 0x40 + (b.toNat - 0x80)) % 0x40 = b.toNat := by omega
    rw [toUInt8_eq h₁, toUInt8_eq h₂]
  | @three a b c ha hb hoverlong hsurrogate hc =>
    unfold IsTail at hb hc
    generalize hn : ((a.toNat - 0xe0) * 0x40 + (b.toNat - 0x80)) * 0x40 + (c.toNat - 0x80) = n
    rw [if_neg (by omega), if_neg (by omega), if_pos (by omega)]
    have h₁ : 0xe0 + n / 0x1000 = a.toNat := by omega
    have h₂ : 0x80 + n / 0x40 % 0x40 = b.toNat := by omega
    have h₃ : 0x80 + n % 0x40 = c.toNat := by omega
    rw [toUInt8_eq h₁, toUInt8_eq h₂, toUInt8_eq h₃]
  | @four a b c d ha hb hoverlong hbeyond hc hd =>
    unfold IsTail at hb hc hd
    generalize hn : (((a.toNat - 0xf0) * 0x40 + (b.toNat - 0x80)) * 0x40 + (c.toNat - 0x80)) *
      0x40 + (d.toNat - 0x80) = n
    rw [if_neg (by omega), if_neg (by omega), if_neg (by omega)]
    have h₁ : 0xf0 + n / 0x40000 = a.toNat := by omega
    have h₂ : 0x80 + n / 0x1000 % 0x40 = b.toNat := by omega
    have h₃ : 0x80 + n / 0x40 % 0x40 = c.toNat := by omega
    have h₄ : 0x80 + n % 0x40 = d.toNat := by omega
    rw [toUInt8_eq h₁, toUInt8_eq h₂, toUInt8_eq h₃, toUInt8_eq h₄]

/-- A character is spelled by its bytes. -/
theorem spells_encodeChar (c : Char) : Spells (encodeChar c) c.toNat := by
  have hvalid : c.toNat.isValidChar := c.valid
  unfold Nat.isValidChar at hvalid
  unfold encodeChar
  dsimp only
  generalize c.toNat = n at hvalid
  -- One case for each number of bytes, with the bytes named as numbers before the arithmetic.
  split_ifs with h₁ h₂ h₃
  · obtain ⟨a, ha', ha⟩ := exists_byte (n := n) (by omega)
    rw [ha', ← ha]
    exact .one (by omega)
  · obtain ⟨a, ha', ha⟩ := exists_byte (n := 0xc0 + n / 0x40) (by omega)
    obtain ⟨b, hb', hb⟩ := exists_byte (n := 0x80 + n % 0x40) (by omega)
    have hn : n = (a.toNat - 0xc0) * 0x40 + (b.toNat - 0x80) := by omega
    rw [ha', hb', hn]
    exact .two (by omega) ⟨by omega, by omega⟩
  · obtain ⟨a, ha', ha⟩ := exists_byte (n := 0xe0 + n / 0x1000) (by omega)
    obtain ⟨b, hb', hb⟩ := exists_byte (n := 0x80 + n / 0x40 % 0x40) (by omega)
    obtain ⟨c, hc', hc⟩ := exists_byte (n := 0x80 + n % 0x40) (by omega)
    have hn : n = ((a.toNat - 0xe0) * 0x40 + (b.toNat - 0x80)) * 0x40 + (c.toNat - 0x80) := by
      omega
    rw [ha', hb', hc', hn]
    exact .three (by omega) ⟨by omega, by omega⟩ (by omega) (by omega) ⟨by omega, by omega⟩
  · obtain ⟨a, ha', ha⟩ := exists_byte (n := 0xf0 + n / 0x40000) (by omega)
    obtain ⟨b, hb', hb⟩ := exists_byte (n := 0x80 + n / 0x1000 % 0x40) (by omega)
    obtain ⟨c, hc', hc⟩ := exists_byte (n := 0x80 + n / 0x40 % 0x40) (by omega)
    obtain ⟨d, hd', hd⟩ := exists_byte (n := 0x80 + n % 0x40) (by omega)
    have hn : n = (((a.toNat - 0xf0) * 0x40 + (b.toNat - 0x80)) * 0x40 + (c.toNat - 0x80)) *
        0x40 + (d.toNat - 0x80) := by omega
    rw [ha', hb', hc', hd', hn]
    exact .four (by omega) ⟨by omega, by omega⟩ (by omega) (by omega) ⟨by omega, by omega⟩
      ⟨by omega, by omega⟩

/-! ## The decoder -/

section Decoder

variable {a b : UInt8} {at_ code owed low high : Nat} {seen : List UInt8}

/-- What the first byte of two opens. -/
theorem ofLead?_two (ha : 0xc2 ≤ a.toNat ∧ a.toNat ≤ 0xdf) :
    Pending.ofLead? a = some ⟨[a], a.toNat - 0xc0, 1, 0x80, 0xbf⟩ := if_pos ha

/-- What the first byte of three opens. -/
theorem ofLead?_three (ha : 0xe0 ≤ a.toNat ∧ a.toNat ≤ 0xef) :
    Pending.ofLead? a = some ⟨[a], a.toNat - 0xe0, 2, if a.toNat = 0xe0 then 0xa0 else 0x80,
      if a.toNat = 0xed then 0x9f else 0xbf⟩ := by
  unfold Pending.ofLead?
  dsimp only
  rw [if_neg (by omega)]
  by_cases h₁ : a.toNat = 0xe0
  · simp [h₁]
  by_cases h₂ : a.toNat = 0xed
  · simp [h₂]
  rw [if_neg h₁, if_neg h₂, if_pos (by omega), if_neg h₁, if_neg h₂]

/-- What the first byte of four opens. -/
theorem ofLead?_four (ha : 0xf0 ≤ a.toNat ∧ a.toNat ≤ 0xf4) :
    Pending.ofLead? a = some ⟨[a], a.toNat - 0xf0, 3, if a.toNat = 0xf0 then 0x90 else 0x80,
      if a.toNat = 0xf4 then 0x8f else 0xbf⟩ := by
  unfold Pending.ofLead?
  dsimp only
  rw [if_neg (by omega), if_neg (by omega), if_neg (by omega), if_neg (by omega)]
  by_cases h₁ : a.toNat = 0xf0
  · simp [h₁]
  by_cases h₂ : a.toNat = 0xf4
  · simp [h₂]
  rw [if_neg h₁, if_pos (by omega), if_neg h₁, if_neg h₂]

/-- No other byte opens anything. -/
theorem ofLead?_eq_none (ha : a.toNat < 0xc2 ∨ 0xf4 < a.toNat) : Pending.ofLead? a = none := by
  unfold Pending.ofLead?
  dsimp only
  rw [if_neg (by omega), if_neg (by omega), if_neg (by omega), if_neg (by omega),
    if_neg (by omega), if_neg (by omega), if_neg (by omega)]

/-- The last byte that a character owes ends it. -/
theorem scan_last (hb : low ≤ b.toNat ∧ b.toNat ≤ high) :
    scan at_ (some ⟨seen, code, 1, low, high⟩) (b :: rest) =
      (Char.ofNat (code * 0x40 + (b.toNat - 0x80)) :: (scan (at_ + 1) none rest).1,
        (scan (at_ + 1) none rest).2) := by
  rw [scan, if_pos hb]
  rfl

/-- Another byte that a character owes leaves it one less to owe. -/
theorem scan_more (hb : low ≤ b.toNat ∧ b.toNat ≤ high) :
    scan at_ (some ⟨seen, code, owed + 2, low, high⟩) (b :: rest) =
      scan (at_ + 1) (some ⟨seen ++ [b], code * 0x40 + (b.toNat - 0x80), owed + 1, 0x80, 0xbf⟩)
        rest := by
  rw [scan, if_pos hb]
  rfl

/-- Bytes that end whole inside a character go on with a byte in its range. -/
theorem exists_of_scan_pending {p : Pending} (h : scan at_ (some p) bs = (cs, .clean)) :
    ∃ b rest, bs = b :: rest ∧ p.low ≤ b.toNat ∧ b.toNat ≤ p.high := by
  cases bs with
  | nil =>
    rw [scan] at h
    cases h
  | cons b rest =>
    by_cases hb : p.low ≤ b.toNat ∧ b.toNat ≤ p.high
    · exact ⟨b, rest, rfl, hb⟩
    · rw [scan, if_neg hb] at h
      cases h

/-- The byte that ends a character that owes one. -/
theorem exists_last_of_scan
    (h : scan at_ (some ⟨seen, code, 1, low, high⟩) bs = (cs, .clean)) :
    ∃ b rest cs', bs = b :: rest ∧ (low ≤ b.toNat ∧ b.toNat ≤ high) ∧
      cs = Char.ofNat (code * 0x40 + (b.toNat - 0x80)) :: cs' ∧
      scan (at_ + 1) none rest = (cs', .clean) := by
  obtain ⟨b, rest, rfl, hb⟩ := exists_of_scan_pending h
  rw [scan_last hb] at h
  obtain ⟨rfl, hend⟩ := Prod.mk.inj h
  exact ⟨b, rest, _, rfl, hb, rfl, Prod.ext rfl hend⟩

/-- The next byte of a character that owes several. -/
theorem exists_more_of_scan
    (h : scan at_ (some ⟨seen, code, owed + 2, low, high⟩) bs = (cs, .clean)) :
    ∃ b rest, bs = b :: rest ∧ (low ≤ b.toNat ∧ b.toNat ≤ high) ∧
      scan (at_ + 1) (some ⟨seen ++ [b], code * 0x40 + (b.toNat - 0x80), owed + 1, 0x80, 0xbf⟩)
        rest = (cs, .clean) := by
  obtain ⟨b, rest, rfl, hb⟩ := exists_of_scan_pending h
  rw [scan_more hb] at h
  exact ⟨b, rest, rfl, hb, h⟩

/-- A byte below 128 is a character. -/
theorem scan_one (ha : a.toNat < 0x80) :
    scan at_ none (a :: rest) =
      (Char.ofNat a.toNat :: (scan (at_ + 1) none rest).1, (scan (at_ + 1) none rest).2) := by
  rw [scan, if_pos ha]

/-- What a first byte opens goes on. -/
theorem scan_lead {p : Pending} (ha : ¬a.toNat < 0x80) (hp : Pending.ofLead? a = some p) :
    scan at_ none (a :: rest) = scan (at_ + 1) (some p) rest := by
  rw [scan, if_neg ha, hp]

/-- The range of a second byte, narrowed behind one first byte from below and behind another from
above, holds the tails that the table allows. -/
theorem second_iff {bottom top : Nat} (hbottom : 0x80 ≤ bottom) (htop : top ≤ 0xbf)
    (a b : UInt8) (low high : Nat) :
    ((if a.toNat = low then bottom else 0x80) ≤ b.toNat ∧
        b.toNat ≤ if a.toNat = high then top else 0xbf) ↔
      IsTail b ∧ (a.toNat = low → bottom ≤ b.toNat) ∧ (a.toNat = high → b.toNat ≤ top) := by
  unfold IsTail
  split_ifs <;> omega

/-- A spelling is decoded to the character of its code point. -/
theorem Spells.scan_append (h : Spells w n) (at_ : Nat) (rest : List UInt8) :
    scan at_ none (w ++ rest) =
      (Char.ofNat n :: (scan (at_ + w.length) none rest).1,
        (scan (at_ + w.length) none rest).2) := by
  cases h with
  | one ha => exact scan_one ha
  | two ha hb => exact (scan_lead (by omega) (ofLead?_two ha)).trans (scan_last hb)
  | @three a b c ha hb hoverlong hsurrogate hc =>
    have hrange := (second_iff (by decide) (by decide) a b _ _).2 ⟨hb, hoverlong, hsurrogate⟩
    exact (scan_lead (by omega) (ofLead?_three ha)).trans <|
      (scan_more hrange).trans (scan_last hc)
  | @four a b c d ha hb hoverlong hbeyond hc hd =>
    have hrange := (second_iff (by decide) (by decide) a b _ _).2 ⟨hb, hoverlong, hbeyond⟩
    exact (scan_lead (by omega) (ofLead?_four ha)).trans <|
      (scan_more hrange).trans <|
        (scan_more hc).trans (scan_last hd)

/-- Bytes that are decoded whole begin with a spelling of their first character. -/
theorem exists_spells_of_scan (hne : bs ≠ []) (h : scan at_ none bs = (cs, .clean)) :
    ∃ w n rest cs', Spells w n ∧ bs = w ++ rest ∧ cs = Char.ofNat n :: cs' ∧
      scan (at_ + w.length) none rest = (cs', .clean) := by
  obtain ⟨a, bs, rfl⟩ := List.exists_cons_of_ne_nil hne
  -- The first byte tells the row of the table, and the decoder asks for the rest of that row.
  by_cases hone : a.toNat < 0x80
  · rw [scan_one hone] at h
    obtain ⟨rfl, hend⟩ := Prod.mk.inj h
    exact ⟨[a], a.toNat, bs, _, .one hone, rfl, rfl, Prod.ext rfl hend⟩
  by_cases htwo : 0xc2 ≤ a.toNat ∧ a.toNat ≤ 0xdf
  · rw [scan_lead hone (ofLead?_two htwo)] at h
    obtain ⟨b, rest, cs', rfl, hb, rfl, hrest⟩ := exists_last_of_scan h
    exact ⟨_, _, rest, cs', .two htwo hb, rfl, rfl, hrest⟩
  by_cases hthree : 0xe0 ≤ a.toNat ∧ a.toNat ≤ 0xef
  · rw [scan_lead hone (ofLead?_three hthree)] at h
    obtain ⟨b, bs, rfl, hrange, h⟩ := exists_more_of_scan h
    obtain ⟨c, rest, cs', rfl, hc, rfl, hrest⟩ := exists_last_of_scan h
    obtain ⟨hb, hoverlong, hsurrogate⟩ := (second_iff (by decide) (by decide) a b _ _).1 hrange
    exact ⟨_, _, rest, cs', .three hthree hb hoverlong hsurrogate hc, rfl, rfl, hrest⟩
  by_cases hfour : 0xf0 ≤ a.toNat ∧ a.toNat ≤ 0xf4
  · rw [scan_lead hone (ofLead?_four hfour)] at h
    obtain ⟨b, bs, rfl, hrange, h⟩ := exists_more_of_scan h
    obtain ⟨c, bs, rfl, hc, h⟩ := exists_more_of_scan h
    obtain ⟨d, rest, cs', rfl, hd, rfl, hrest⟩ := exists_last_of_scan h
    obtain ⟨hb, hoverlong, hbeyond⟩ := (second_iff (by decide) (by decide) a b _ _).1 hrange
    exact ⟨_, _, rest, cs', .four hfour hb hoverlong hbeyond hc hd, rfl, rfl, hrest⟩
  · rw [scan, if_neg hone, ofLead?_eq_none (by omega)] at h
    cases h

/-- Bytes are decoded whole to a text where they are its encoding. -/
theorem scan_eq_clean_iff : scan at_ none bs = (cs, .clean) ↔ bs = encode cs := by
  -- By the text: its first character is spelled by its bytes, and bytes decoded to it spell it.
  induction cs generalizing bs at_ with
  | nil =>
    constructor
    · intro h
      cases bs with
      | nil => rfl
      | cons b bs =>
        obtain ⟨w, n, rest, cs', -, -, hchars, -⟩ := exists_spells_of_scan (List.cons_ne_nil b bs) h
        cases hchars
    · rintro rfl
      rfl
  | cons c cs ih =>
    constructor
    · intro h
      have hne : bs ≠ [] := by
        rintro rfl
        cases h
      obtain ⟨w, n, rest, cs', hw, rfl, hchars, hrest⟩ := exists_spells_of_scan hne h
      obtain ⟨rfl, rfl⟩ := List.cons.inj hchars
      rw [encode_cons, hw.encodeChar_eq, ih.1 hrest]
    · rintro rfl
      have hrest : scan (at_ + (encodeChar c).length) none (encode cs) = (cs, .clean) := ih.2 rfl
      rw [encode_cons, (spells_encodeChar c).scan_append, hrest, Char.ofNat_toNat]

end Decoder

/-! ## Decoding -/

/-- Bytes are decoded to a text where they are its encoding. -/
theorem decode_eq_ok_iff : decode bs = .ok cs ↔ bs = encode cs := by
  have hscan : scan 0 none bs = (cs, .clean) ↔ bs = encode cs := scan_eq_clean_iff
  rw [← hscan, decode]
  rcases scan 0 none bs with ⟨cs', _ | _ | _⟩ <;> simp

/-- Different texts have different encodings. -/
theorem encode_injective : Function.Injective encode := by
  intro cs cs' h
  have hdecode : decode (encode cs) = .ok cs := decode_eq_ok_iff.2 rfl
  rw [h, decode_eq_ok_iff.2 rfl] at hdecode
  exact (Except.ok.inj hdecode).symm

/-- A text is encoded to valid bytes. -/
theorem valid_encode (cs : List Char) : Valid (encode cs) := by
  induction cs with
  | nil => exact .nil
  | cons c cs ih => exact .cons (spells_encodeChar c) ih

/-- Valid bytes are the encodings of texts. -/
theorem valid_iff : Valid bs ↔ ∃ cs, bs = encode cs := by
  constructor
  · intro h
    induction h with
    | nil => exact ⟨[], rfl⟩
    | @cons w rest n hw _ ih =>
      obtain ⟨cs, rfl⟩ := ih
      exact ⟨Char.ofNat n :: cs, by rw [encode_cons, hw.encodeChar_eq]⟩
  · rintro ⟨cs, rfl⟩
    exact valid_encode cs

/-- Decoding fails on the bytes that are not valid. -/
theorem decode_eq_error_iff : (∃ fault, decode bs = .error fault) ↔ ¬Valid bs := by
  rw [valid_iff]
  constructor
  · rintro ⟨fault, hfault⟩ ⟨cs, hcs⟩
    rw [decode_eq_ok_iff.2 hcs] at hfault
    cases hfault
  · intro hnone
    cases hdecode : decode bs with
    | error fault => exact ⟨fault, rfl⟩
    | ok cs => exact absurd ⟨cs, decode_eq_ok_iff.1 hdecode⟩ hnone

/-! ## What is not valid -/

/-- Bytes have the form of a number: the first one tells how many there are, and the bits that are
left to each of them make up the number. -/
inductive Forms : List UInt8 → Nat → Prop
  | one {a : UInt8} (ha : a.toNat < 0x80) : Forms [a] a.toNat
  | two {a b : UInt8} (ha : 0xc0 ≤ a.toNat ∧ a.toNat ≤ 0xdf) (hb : IsTail b) :
      Forms [a, b] ((a.toNat - 0xc0) * 0x40 + (b.toNat - 0x80))
  | three {a b c : UInt8} (ha : 0xe0 ≤ a.toNat ∧ a.toNat ≤ 0xef) (hb : IsTail b) (hc : IsTail c) :
      Forms [a, b, c] (((a.toNat - 0xe0) * 0x40 + (b.toNat - 0x80)) * 0x40 + (c.toNat - 0x80))
  | four {a b c d : UInt8} (ha : 0xf0 ≤ a.toNat ∧ a.toNat ≤ 0xf7) (hb : IsTail b) (hc : IsTail c)
      (hd : IsTail d) :
      Forms [a, b, c, d]
        ((((a.toNat - 0xf0) * 0x40 + (b.toNat - 0x80)) * 0x40 + (c.toNat - 0x80)) * 0x40 +
          (d.toNat - 0x80))

/-- The least number that takes so many bytes. -/
def least : Nat → Nat
  | 0 | 1 => 0
  | 2 => 0x80
  | 3 => 0x800
  | _ => 0x10000

/-- How many bytes there are behind the first one of a form. -/
def tails (a : UInt8) : Nat :=
  if a.toNat < 0x80 then 0 else if a.toNat < 0xe0 then 1 else if a.toNat < 0xf0 then 2 else 3

variable {u : List UInt8} {m : Nat}

/-- Bytes spell the code points whose form they have, in no more bytes than it takes. -/
theorem spells_iff_forms : Spells w n ↔ Forms w n ∧ n.isValidChar ∧ least w.length ≤ n := by
  unfold Nat.isValidChar
  constructor
  · intro h
    refine ⟨?_, h.isValidChar, ?_⟩
    · cases h with
      | one ha => exact .one ha
      | two ha hb => exact .two (by omega) hb
      | three ha hb hoverlong hsurrogate hc => exact .three ha hb hc
      | four ha hb hoverlong hbeyond hc hd => exact .four (by omega) hb hc hd
    · cases h <;> simp only [List.length_cons, List.length_nil, least] <;> omega
  · rintro ⟨h, hvalid, hleast⟩
    -- What bounds the number bounds the first two bytes as the table does.
    cases h with
    | one ha => exact .one ha
    | two ha hb =>
      have hleast : 0x80 ≤ _ := hleast
      unfold IsTail at hb
      exact .two (by omega) hb
    | three ha hb hc =>
      have hleast : 0x800 ≤ _ := hleast
      unfold IsTail at hb hc
      exact .three ha hb (by omega) (by omega) hc
    | four ha hb hc hd =>
      have hleast : 0x10000 ≤ _ := hleast
      unfold IsTail at hb hc hd
      exact .four (by omega) hb (by omega) (by omega) hc hd

/-- The first byte of a form tells its length. -/
theorem Forms.exists_cons (h : Forms w n) : ∃ a tail, w = a :: tail ∧ tail.length = tails a := by
  unfold tails
  cases h with
  | one ha => exact ⟨_, _, rfl, (if_pos ha).symm⟩
  | two ha hb => exact ⟨_, _, rfl, by rw [if_neg (by omega), if_pos (by omega)]; rfl⟩
  | three ha hb hc =>
    exact ⟨_, _, rfl, by rw [if_neg (by omega), if_neg (by omega), if_pos (by omega)]; rfl⟩
  | four ha hb hc hd =>
    exact ⟨_, _, rfl, by rw [if_neg (by omega), if_neg (by omega), if_neg (by omega)]; rfl⟩

/-- Bytes that begin with a form are not none. -/
theorem Forms.append_ne_nil (h : Forms w n) : w ++ rest ≠ [] := by
  obtain ⟨a, tail, rfl, -⟩ := h.exists_cons
  exact List.cons_ne_nil a (tail ++ rest)

/-- Bytes begin with one form at most. -/
theorem Forms.append_inj {rest' : List UInt8} (hw : Forms w n) (hu : Forms u m)
    (h : w ++ rest = u ++ rest') : w = u ∧ rest = rest' := by
  obtain ⟨a, tail, rfl, htail⟩ := hw.exists_cons
  obtain ⟨b, tail', rfl, htail'⟩ := hu.exists_cons
  obtain ⟨rfl, -⟩ := List.cons.inj h
  exact List.append_inj h (by rw [List.length_cons, List.length_cons, htail, htail'])

/-- Bytes have the form of one number at most. -/
theorem Forms.number_eq (hn : Forms w n) (hm : Forms w m) : n = m := by
  cases hn <;> cases hm <;> rfl

/-- Valid bytes begin with a spelling, and what is behind it is valid. -/
theorem Valid.exists_spells (h : Valid bs) (hne : bs ≠ []) :
    ∃ w n rest, Spells w n ∧ Valid rest ∧ bs = w ++ rest := by
  cases h with
  | nil => exact absurd rfl hne
  | cons hw hrest => exact ⟨_, _, _, hw, hrest, rfl⟩

/-- What is behind a text in valid bytes is valid. -/
theorem Valid.of_encode_append (h : Valid (encode cs ++ bs)) : Valid bs := by
  induction cs with
  | nil => exact h
  | cons c cs ih =>
    have hc := (spells_iff_forms.1 (spells_encodeChar c)).1
    rw [encode_cons, List.append_assoc] at h
    obtain ⟨w, n, rest, hw, hrest, heq⟩ := h.exists_spells hc.append_ne_nil
    obtain ⟨-, rfl⟩ := hc.append_inj (spells_iff_forms.1 hw).1 heq
    exact ih hrest

/-- A form in valid bytes is that of a code point of a character, and of the least length: neither a
surrogate nor anything beyond the last code point is there, and no overlong form. -/
theorem Forms.of_valid (h : Forms w n) (hvalid : Valid (encode cs ++ (w ++ rest))) :
    n.isValidChar ∧ least w.length ≤ n := by
  obtain ⟨u, m, rest', hu, -, heq⟩ := hvalid.of_encode_append.exists_spells h.append_ne_nil
  obtain ⟨hforms, hscalar, hleast⟩ := spells_iff_forms.1 hu
  obtain ⟨rfl, -⟩ := h.append_inj hforms heq
  obtain rfl := h.number_eq hforms
  exact ⟨hscalar, hleast⟩

/-- Bytes that stop inside a character are not valid. -/
theorem not_valid_of_cut (hcut : w ++ u = encodeChar c) (hw : w ≠ []) (hu : u ≠ []) :
    ¬Valid (encode cs ++ w) := by
  intro hvalid
  obtain ⟨v, m, rest, hv, -, rfl⟩ := hvalid.of_encode_append.exists_spells hw
  have hwhole : v ++ (rest ++ u) = encodeChar c ++ [] := by
    rw [← List.append_assoc, hcut, List.append_nil]
  obtain ⟨-, hnil⟩ := (spells_iff_forms.1 hv).1.append_inj
    (spells_iff_forms.1 (spells_encodeChar c)).1 hwhole
  exact hu (List.append_eq_nil_iff.1 hnil).2

end Stratum.Text.Utf8

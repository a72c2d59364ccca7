/-
**Decoding what was encoded.**

The octets of a text are decoded to the text.  A character is one to four octets: the first tells how
many are to come and between which bounds the next one lies, and the bounds leave out only what is
encoded shorter, surrogates, and what lies past the last character.

* `LoxLang.Text.Utf8.octets` — the octets of a text;
* `LoxLang.Text.Utf8.lead?_two`, `LoxLang.Text.Utf8.lead?_three`, `LoxLang.Text.Utf8.lead?_four` — what
  first octets tell;
* `LoxLang.Text.Utf8.decodeFrom_utf8EncodeChar` — one character;
* `LoxLang.Text.Utf8.decode_octets` — **the octets of a text are decoded to it**.
-/

import LoxLang.Text.Utf8

set_option relaxedAutoImplicit false
set_option autoImplicit false

namespace LoxLang.Text.Utf8

/-- The octets that encode a text. -/
def octets (text : String) : List Nat := text.toUTF8.data.toList.map UInt8.toNat

theorem octets_ofList (text : List Char) :
    octets (String.ofList text) = text.flatMap fun c => (String.utf8EncodeChar c).map UInt8.toNat := by
  unfold octets String.toUTF8
  rw [String.toByteArray_ofList, List.utf8Encode, List.toList_data_toByteArray, List.map_flatMap]

/-! ### One octet -/

theorem lead?_one {octet : Nat} (h : octet < 0x80) : lead? octet = some ⟨0, 0x80, 0xbf, octet⟩ :=
  if_pos h

theorem lead?_two {octet : Nat} (h : 0xc2 ≤ octet) (h' : octet < 0xe0) :
    lead? octet = some ⟨1, 0x80, 0xbf, octet - 0xc0⟩ := by
  unfold lead?
  rw [if_neg (by omega), if_neg (by omega), if_pos h']

/-- Three octets: what would fit into two, and the surrogates, are ruled out. -/
theorem lead?_three (octet : Nat) (h : 0xe0 ≤ octet) (h' : octet < 0xf0) :
    ∃ least greatest, lead? octet = some ⟨2, least, greatest, octet - 0xe0⟩ ∧
      ∀ next, 0x80 ≤ next → next ≤ 0xbf → (octet = 0xe0 → 0xa0 ≤ next) →
        (octet = 0xed → next ≤ 0x9f) → least ≤ next ∧ next ≤ greatest := by
  unfold lead?
  rw [if_neg (by omega), if_neg (by omega), if_neg (by omega)]
  by_cases hshort : octet = 0xe0
  · subst hshort
    exact ⟨0xa0, 0xbf, rfl, fun next _ hle hleast _ => ⟨hleast rfl, hle⟩⟩
  · by_cases hsurrogate : octet = 0xed
    · subst hsurrogate
      exact ⟨0x80, 0x9f, rfl, fun next hge _ _ hgreatest => ⟨hge, hgreatest rfl⟩⟩
    · rw [if_neg hshort, if_neg hsurrogate, if_pos h']
      exact ⟨0x80, 0xbf, rfl, fun next hge hle _ _ => ⟨hge, hle⟩⟩

/-- Four octets: what would fit into three, and what lies past the last character, are ruled out. -/
theorem lead?_four (octet : Nat) (h : 0xf0 ≤ octet) (h' : octet ≤ 0xf4) :
    ∃ least greatest, lead? octet = some ⟨3, least, greatest, octet - 0xf0⟩ ∧
      ∀ next, 0x80 ≤ next → next ≤ 0xbf → (octet = 0xf0 → 0x90 ≤ next) →
        (octet = 0xf4 → next ≤ 0x8f) → least ≤ next ∧ next ≤ greatest := by
  unfold lead?
  rw [if_neg (by omega), if_neg (by omega), if_neg (by omega), if_neg (by omega),
    if_neg (by omega), if_neg (by omega)]
  by_cases hshort : octet = 0xf0
  · subst hshort
    exact ⟨0x90, 0xbf, rfl, fun next _ hle hleast _ => ⟨hleast rfl, hle⟩⟩
  · by_cases hlast : octet = 0xf4
    · subst hlast
      exact ⟨0x80, 0x8f, rfl, fun next hge _ _ hgreatest => ⟨hge, hgreatest rfl⟩⟩
    · rw [if_neg hshort, if_pos (by omega)]
      exact ⟨0x80, 0xbf, rfl, fun next hge hle _ _ => ⟨hge, hle⟩⟩

variable {position start octet : Nat} {rest : List Nat}

/-- A first octet that owes others. -/
theorem decodeFrom_lead {lead : Lead} (h : lead? octet = some lead) (ho : lead.owed ≠ 0) :
    decodeFrom position none (octet :: rest) =
      decodeFrom (position + 1) (some ⟨position, octet, lead⟩) rest := by
  rw [decodeFrom, h]
  exact if_neg ho

/-- A further octet within the bounds, with others owed behind it. -/
theorem decodeFrom_between {owed least greatest bits next : Nat} (hl : least ≤ next)
    (hg : next ≤ greatest) :
    decodeFrom position (some ⟨start, octet, ⟨owed + 2, least, greatest, bits⟩⟩) (next :: rest) =
      decodeFrom (position + 1)
        (some ⟨start, octet, ⟨owed + 1, 0x80, 0xbf, bits * 0x40 + (next - 0x80)⟩⟩) rest := by
  rw [decodeFrom, Lead.next?, if_pos ⟨hl, hg⟩]
  exact if_neg (Nat.succ_ne_zero owed)

/-- The last octet of a character. -/
theorem decodeFrom_last {least greatest bits next : Nat} (hl : least ≤ next) (hg : next ≤ greatest) :
    decodeFrom position (some ⟨start, octet, ⟨1, least, greatest, bits⟩⟩) (next :: rest) =
      (decodeFrom (position + 1) none rest).map
        (Char.ofNat (bits * 0x40 + (next - 0x80)) :: ·) := by
  rw [decodeFrom, Lead.next?, if_pos ⟨hl, hg⟩]
  exact if_pos rfl

/-! ### One character -/

/-- A character is no surrogate and does not lie past the last one. -/
theorem toNat_bounds (c : Char) : c.toNat < 0xd800 ∨ 0xdfff < c.toNat ∧ c.toNat < 0x110000 := c.valid

/-- **The octets of a character are decoded to it**, by the number of them. -/
theorem decodeFrom_utf8EncodeChar (c : Char) (position : Nat) (rest : List Nat) :
    ∃ behind, decodeFrom position none ((String.utf8EncodeChar c).map UInt8.toNat ++ rest) =
      (decodeFrom behind none rest).map (c :: ·) := by
  have hbounds := toNat_bounds c
  have hc : Char.ofNat c.toNat = c := Char.ofNat_toNat c
  have hval : c.val.toNat = c.toNat := rfl
  unfold String.utf8EncodeChar
  dsimp only
  rw [hval]
  generalize c.toNat = v at hbounds hc
  -- The value decides how many octets there are, from one to four.
  by_cases h₁ : v ≤ 127
  · refine ⟨position + 1, ?_⟩
    have ho : (UInt8.ofNat v).toNat = v := by
      rw [UInt8.toNat_ofNat']
      omega
    rw [if_pos h₁, List.map_cons, List.map_nil, List.cons_append, List.nil_append, ho, decodeFrom,
      lead?_one (by omega)]
    dsimp only
    rw [if_pos rfl, hc]
  rw [if_neg h₁]
  by_cases h₂ : v ≤ 2047
  · refine ⟨position + 2, ?_⟩
    simp only [if_pos h₂, List.map_cons, List.map_nil, List.cons_append, List.nil_append,
      UInt8.toNat_ofNat']
    rw [decodeFrom_lead (lead?_two (by omega) (by omega)) (Nat.succ_ne_zero 0),
      decodeFrom_last (by omega) (by omega)]
    have hv : ((v / 64 % 32 + 192) % 2 ^ 8 - 0xc0) * 0x40 + ((v % 64 + 128) % 2 ^ 8 - 0x80) = v := by
      omega
    rw [hv, hc]
  rw [if_neg h₂]
  by_cases h₃ : v ≤ 65535
  · refine ⟨position + 3, ?_⟩
    simp only [if_pos h₃, List.map_cons, List.map_nil, List.cons_append, List.nil_append,
      UInt8.toNat_ofNat']
    obtain ⟨least, greatest, hlead, hnext⟩ :=
      lead?_three ((v / 4096 % 16 + 224) % 2 ^ 8) (by omega) (by omega)
    obtain ⟨hl, hg⟩ := hnext ((v / 64 % 64 + 128) % 2 ^ 8) (by omega) (by omega) (by omega) (by omega)
    rw [decodeFrom_lead hlead (Nat.succ_ne_zero 1), decodeFrom_between hl hg,
      decodeFrom_last (by omega) (by omega)]
    have hv : (((v / 4096 % 16 + 224) % 2 ^ 8 - 0xe0) * 0x40 +
        ((v / 64 % 64 + 128) % 2 ^ 8 - 0x80)) * 0x40 + ((v % 64 + 128) % 2 ^ 8 - 0x80) = v := by
      omega
    rw [hv, hc]
  · refine ⟨position + 4, ?_⟩
    simp only [if_neg h₃, List.map_cons, List.map_nil, List.cons_append, List.nil_append,
      UInt8.toNat_ofNat']
    obtain ⟨least, greatest, hlead, hnext⟩ :=
      lead?_four ((v / 262144 % 8 + 240) % 2 ^ 8) (by omega) (by omega)
    obtain ⟨hl, hg⟩ :=
      hnext ((v / 4096 % 64 + 128) % 2 ^ 8) (by omega) (by omega) (by omega) (by omega)
    rw [decodeFrom_lead hlead (Nat.succ_ne_zero 2), decodeFrom_between hl hg,
      decodeFrom_between (by omega) (by omega), decodeFrom_last (by omega) (by omega)]
    have hv : ((((v / 262144 % 8 + 240) % 2 ^ 8 - 0xf0) * 0x40 +
        ((v / 4096 % 64 + 128) % 2 ^ 8 - 0x80)) * 0x40 +
          ((v / 64 % 64 + 128) % 2 ^ 8 - 0x80)) * 0x40 + ((v % 64 + 128) % 2 ^ 8 - 0x80) = v := by
      omega
    rw [hv, hc]

/-! ### Texts -/

/-- **The octets of a text are decoded to it.** -/
theorem decode_octets (text : String) : decode (octets text) = .ok text := by
  have hlist : ∀ (cs : List Char) (position : Nat),
      decodeFrom position none (octets (String.ofList cs)) = .ok cs := by
    intro cs
    induction cs with
    | nil =>
        intro position
        rw [octets_ofList, List.flatMap_nil, decodeFrom]
    | cons c cs ih =>
        intro position
        obtain ⟨behind, hfirst⟩ := decodeFrom_utf8EncodeChar c position (octets (String.ofList cs))
        have hrest := ih behind
        rw [octets_ofList] at hfirst hrest
        rw [octets_ofList, List.flatMap_cons, hfirst, hrest]
        rfl
  have hwhole := hlist text.toList 0
  rw [String.ofList_toList] at hwhole
  unfold decode
  rw [hwhole]
  exact congrArg Except.ok String.ofList_toList

end LoxLang.Text.Utf8

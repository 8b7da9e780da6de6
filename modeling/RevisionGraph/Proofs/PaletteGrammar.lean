import RevisionGraph.Proofs.HexNumerals
import RevisionGraph.Proofs.Pieces
import RevisionGraph.View.Theme

/-!
# The grammar of palettes

The grammar has a parameter: what a channel may begin with. With a digit (`IsDigit`) it is the
grammar that the error messages describe, and with a digit or a plus sign (`IsDigitOrPlus`) it is
what is read. Each part of the reader has a relation of its own, from pairs of digits over channels
and colours to palettes, and the two grammars differ in the texts with a plus sign only
(`isPalette_isDigit_iff`).
-/

namespace RevisionGraph

namespace Palette

open Text.Hex

def IsPair (First : Char → Nat → Prop) (c d : Char) (n : UInt8) : Prop :=
  ∃ a b, First c a ∧ IsDigit d b ∧ n = UInt8.ofNat (16 * a + b)

/-- Two digits, or four of which the first two give the channel. -/
inductive IsChannel (First : Char → Nat → Prop) : List Char → UInt8 → Prop
  | two {c d : Char} {n : UInt8} : IsPair First c d n → IsChannel First [c, d] n
  | four {c d e f : Char} {n : UInt8} {a b : Nat} :
      IsPair First c d n → IsDigit e a → IsDigit f b → IsChannel First [c, d, e, f] n

/-- Three channels between slashes behind `rgb:` in any case, or six digits that a hash or `0x` may
stand before. -/
inductive IsColor (First : Char → Nat → Prop) : List Char → Color → Prop
  | rgb {mark channels r g b : List Char} {red green blue : UInt8} :
      mark.map Char.toLower = ['r', 'g', 'b', ':'] → channels.splitOn '/' = [r, g, b] →
      IsChannel First (Text.trimWhere Text.isBlank r) red →
      IsChannel First (Text.trimWhere Text.isBlank g) green →
      IsChannel First (Text.trimWhere Text.isBlank b) blue →
      IsColor First (mark ++ channels) (.rgb red green blue)
  | hex {lead : List Char} {c d e f g h : Char} {red green blue : UInt8} :
      lead ∈ [[], ['#'], ['0', 'x']] → IsPair IsDigit c d red → IsPair IsDigit e f green →
      IsPair IsDigit g h blue → IsColor First (lead ++ [c, d, e, f, g, h]) (.rgb red green blue)

/-- The foreground, the background and the basic colours between commas. -/
def IsPalette (First : Char → Nat → Prop) (text : List Char) (p : Palette) : Prop :=
  List.Forall₂ (fun part c => IsColor First (Text.trimWhere Text.isBlank part) c)
    (text.splitOn ',') (p.fg :: p.bg :: List.ofFn p.ansi)

/-! ## Lower case -/

section

variable {c d : Char} {value : Nat}

theorem toNat_toLower (c : Char) :
    (toLower c).toNat = if 65 ≤ c.toNat ∧ c.toNat ≤ 90 then c.toNat + 32 else c.toNat := by
  have hA : 'A'.toNat = 65 := rfl
  have hZ : 'Z'.toNat = 90 := rfl
  simp only [toLower, le_iff_toNat_le, hA, hZ]
  split
  · next h =>
      have hvalid : (c.toNat + 32).isValidChar := .inl (by omega)
      rw [Char.ofNat, dif_pos hvalid]
      rfl
  · rfl

theorem toLower_eq (c : Char) : toLower c = c.toLower := by
  have hletter : c.val ≥ 'A'.val ∧ c.val ≤ 'Z'.val ↔ 65 ≤ c.toNat ∧ c.toNat ≤ 90 :=
    and_congr UInt32.le_iff_toNat_le UInt32.le_iff_toNat_le
  rw [← Char.toNat_inj, toNat_toLower]
  delta Char.toLower
  simp only [hletter]
  split
  · next h =>
      have hadd : (c.val + ('a'.val - 'A'.val)).toNat = (c.val.toNat + 32) % 2 ^ 32 :=
        UInt32.toNat_add ..
      change _ = (c.val + ('a'.val - 'A'.val)).toNat
      rw [hadd, Char.toNat_val, Nat.mod_eq_of_lt (by omega)]
  · rfl

theorem isDigit_toLower_iff : IsDigit (toLower c) value ↔ IsDigit c value := by
  rw [isDigit_iff, isDigit_iff, toNat_toLower]
  split <;> omega

theorem toLower_eq_iff (hd : d.toNat < 65) : toLower c = d ↔ c = d := by
  rw [← Char.toNat_inj, ← Char.toNat_inj, toNat_toLower]
  split <;> omega

theorem isBlank_toLower (c : Char) : Text.isBlank (toLower c) = Text.isBlank c := by
  rw [Bool.eq_iff_iff]
  simp only [Text.isBlank, toNat_toLower, Bool.or_eq_true, Bool.and_eq_true, decide_eq_true_eq,
    beq_iff_eq]
  split <;> omega

end

/-! ## Channels -/

theorem IsChannel.toNat_lt {cs : List Char} {n : UInt8} (h : IsChannel IsDigitOrPlus cs n) :
    ∀ c ∈ cs, c.toNat < 128 := by
  cases h with
  | two hpair =>
      obtain ⟨a, b, hc, hd, -⟩ := hpair
      simp [toNat_lt_of_isDigitOrPlus hc, toNat_lt_of_isDigit hd]
  | four hpair he hf =>
      obtain ⟨a, b, hc, hd, -⟩ := hpair
      simp [toNat_lt_of_isDigitOrPlus hc, toNat_lt_of_isDigit hd, toNat_lt_of_isDigit he,
        toNat_lt_of_isDigit hf]

theorem isPair_iff {c d : Char} {n : UInt8} :
    IsPair IsDigitOrPlus c d n ↔
      ∃ v, Text.numeral? 16 0xFF [c, d] = some v ∧ UInt8.ofNat v = n := by
  simp only [numeral?_eq_some_iff, digitsValue?_dropPlus_pair, IsPair]
  constructor
  · rintro ⟨a, b, ha, hb, rfl⟩
    have hlta := (toNat_lt_of_isDigitOrPlus ha).1
    have hltb := (toNat_lt_of_isDigit hb).1
    exact ⟨_, ⟨⟨a, b, ha, hb, rfl⟩, by omega⟩, rfl⟩
  · rintro ⟨v, ⟨⟨a, b, ha, hb, rfl⟩, -⟩, rfl⟩
    exact ⟨a, b, ha, hb, rfl⟩

theorem isPair_and_isDigit_iff {c d e f : Char} {n : UInt8} :
    (IsPair IsDigitOrPlus c d n ∧ (∃ x, IsDigit e x) ∧ ∃ y, IsDigit f y) ↔
      ∃ v, Text.numeral? 16 0xFFFF [c, d, e, f] = some v ∧ UInt8.ofNat (v / 256) = n := by
  simp only [numeral?_eq_some_iff, digitsValue?_dropPlus_four, digitsValue?_dropPlus_pair, IsPair]
  constructor
  · rintro ⟨⟨a, b, ha, hb, rfl⟩, ⟨x, hx⟩, y, hy⟩
    have hlta := (toNat_lt_of_isDigitOrPlus ha).1
    have hltb := (toNat_lt_of_isDigit hb).1
    have hltx := (toNat_lt_of_isDigit hx).1
    have hlty := (toNat_lt_of_isDigit hy).1
    refine ⟨_, ⟨⟨_, x, y, ⟨a, b, ha, hb, rfl⟩, hx, hy, rfl⟩, by omega⟩, ?_⟩
    congr 1
    omega
  · rintro ⟨v, ⟨⟨_, x, y, ⟨a, b, ha, hb, rfl⟩, hx, hy, rfl⟩, -⟩, rfl⟩
    have hltx := (toNat_lt_of_isDigit hx).1
    have hlty := (toNat_lt_of_isDigit hy).1
    refine ⟨⟨a, b, ha, hb, ?_⟩, ⟨x, hx⟩, y, hy⟩
    congr 1
    omega

theorem channel_eq_ok_iff {cs : List Char} {n : UInt8} :
    channel cs = .ok n ↔ IsChannel IsDigitOrPlus (Text.trimWhere Text.isBlank cs) n := by
  unfold channel
  generalize Text.trimWhere Text.isBlank cs = text
  constructor
  · intro h
    dsimp only at h
    split at h
    · next hsize =>
        split at h
        · next v hv =>
            rw [utf8ByteSize_ofList (toNat_lt_of_numeral? hv)] at hsize
            obtain ⟨c, d, rfl⟩ := List.length_eq_two.mp hsize
            exact .two (isPair_iff.mpr ⟨v, hv, Except.ok.inj h⟩)
        · contradiction
    · split at h
      · next hsize =>
          split at h
          · next v hv =>
              rw [utf8ByteSize_ofList (toNat_lt_of_numeral? hv)] at hsize
              match text, hsize with
              | [c, d, e, f], _ =>
                  obtain ⟨hpair, ⟨x, hx⟩, y, hy⟩ :=
                    isPair_and_isDigit_iff.mpr ⟨v, hv, Except.ok.inj h⟩
                  exact .four hpair hx hy
          · contradiction
      · contradiction
  · intro h
    have hsize := utf8ByteSize_ofList h.toNat_lt
    dsimp only
    cases h with
    | @two c d n hpair =>
        have htwo : (String.ofList [c, d]).utf8ByteSize = 2 := hsize
        obtain ⟨v, hv, rfl⟩ := isPair_iff.mp hpair
        rw [if_pos htwo, hv]
    | @four c d e f n a b hpair he hf =>
        have hfour : (String.ofList [c, d, e, f]).utf8ByteSize = 4 := hsize
        obtain ⟨v, hv, rfl⟩ := isPair_and_isDigit_iff.mp ⟨hpair, ⟨a, he⟩, b, hf⟩
        rw [if_neg (by omega), if_pos hfour, hv]

/-! ## Colours -/

theorem isPair_map_toLower_iff {c d : Char} {n : UInt8} :
    IsPair IsDigitOrPlus (toLower c) (toLower d) n ↔ IsPair IsDigitOrPlus c d n := by
  have hplus : toLower c = '+' ↔ c = '+' := toLower_eq_iff (by decide)
  simp only [IsPair, IsDigitOrPlus, isDigit_toLower_iff, hplus]

theorem isChannel_map_toLower_iff {cs : List Char} {n : UInt8} :
    IsChannel IsDigitOrPlus (cs.map toLower) n ↔ IsChannel IsDigitOrPlus cs n := by
  constructor
  · intro h
    generalize hlower : cs.map toLower = lower at h
    cases h with
    | two hpair =>
        match cs, hlower with
        | [c, d], rfl => exact .two (isPair_map_toLower_iff.mp hpair)
    | four hpair he hf =>
        match cs, hlower with
        | [c, d, e, f], rfl =>
            exact .four (isPair_map_toLower_iff.mp hpair) (isDigit_toLower_iff.mp he)
              (isDigit_toLower_iff.mp hf)
  · intro h
    cases h with
    | two hpair => exact .two (isPair_map_toLower_iff.mpr hpair)
    | four hpair he hf =>
        exact .four (isPair_map_toLower_iff.mpr hpair) (isDigit_toLower_iff.mpr he)
          (isDigit_toLower_iff.mpr hf)

theorem channel_map_toLower_eq_ok_iff {cs : List Char} {n : UInt8} :
    channel (cs.map toLower) = .ok n ↔
      IsChannel IsDigitOrPlus (Text.trimWhere Text.isBlank cs) n := by
  rw [channel_eq_ok_iff, Text.trimWhere_map isBlank_toLower, isChannel_map_toLower_iff]

theorem rgbColor_eq_ok_iff {shown : String} {channels : List Char} {x : Color} :
    rgbColor shown (channels.map toLower) = .ok x ↔
      ∃ r g b red green blue, channels.splitOn '/' = [r, g, b] ∧
        IsChannel IsDigitOrPlus (Text.trimWhere Text.isBlank r) red ∧
        IsChannel IsDigitOrPlus (Text.trimWhere Text.isBlank g) green ∧
        IsChannel IsDigitOrPlus (Text.trimWhere Text.isBlank b) blue ∧
        .rgb red green blue = x := by
  have hslash (c : Char) : toLower c = '/' ↔ c = '/' := toLower_eq_iff (by decide)
  rw [rgbColor, Text.splitOn_map hslash]
  generalize channels.splitOn '/' = pieces
  constructor
  · intro h
    split at h
    · next r' g' b' heq =>
        match pieces, heq with
        | [r, g, b], rfl =>
            simp only [Text.bind_eq_ok_iff, channel_map_toLower_eq_ok_iff,
              Text.pure_eq_ok_iff] at h
            obtain ⟨red, hr, green, hg, blue, hb, hx⟩ := h
            exact ⟨r, g, b, red, green, blue, rfl, hr, hg, hb, hx⟩
    · cases h
  · rintro ⟨r, g, b, red, green, blue, rfl, hr, hg, hb, hx⟩
    simp only [List.map_cons, List.map_nil, Text.bind_eq_ok_iff, channel_map_toLower_eq_ok_iff,
      Text.pure_eq_ok_iff]
    exact ⟨red, hr, green, hg, blue, hb, hx⟩

theorem hexColor_eq_ok_iff {text : String} {x : Color} :
    hexColor text = .ok x ↔
      ∃ c d e f g h red green blue, hexDigits text.toList = [c, d, e, f, g, h] ∧
        IsPair IsDigit c d red ∧ IsPair IsDigit e f green ∧ IsPair IsDigit g h blue ∧
        .rgb red green blue = x := by
  rw [hexColor]
  generalize hexDigits text.toList = digits
  constructor
  · intro hok
    split at hok
    · next a b a' b' a'' b'' heq =>
        simp only [List.map_eq_cons_iff, List.map_eq_nil_iff, digitValue?_eq_some_iff] at heq
        obtain ⟨c, _, rfl, hc, d, _, rfl, hd, e, _, rfl, he, f, _, rfl, hf, g, _, rfl, hg, h, _,
          rfl, hh, rfl⟩ := heq
        refine ⟨c, d, e, f, g, h, _, _, _, rfl, ⟨a, b, hc, hd, rfl⟩, ⟨a', b', he, hf, rfl⟩,
          ⟨a'', b'', hg, hh, rfl⟩, ?_⟩
        simpa only [Nat.mul_comm 16] using Except.ok.inj hok
    · cases hok
  · rintro ⟨c, d, e, f, g, h, _, _, _, rfl, ⟨a, b, hc, hd, rfl⟩, ⟨a', b', he, hf, rfl⟩,
      ⟨a'', b'', hg, hh, rfl⟩, rfl⟩
    simp only [List.map_cons, List.map_nil, digitValue?_eq_some_iff.mpr hc,
      digitValue?_eq_some_iff.mpr hd, digitValue?_eq_some_iff.mpr he,
      digitValue?_eq_some_iff.mpr hf, digitValue?_eq_some_iff.mpr hg,
      digitValue?_eq_some_iff.mpr hh, Nat.mul_comm 16]

theorem hexDigits_eq_iff {cs : List Char} {c d : Char} {rest : List Char} {a b : Nat}
    (hc : IsDigit c a) (hd : IsDigit d b) :
    hexDigits cs = c :: d :: rest ↔
      ∃ lead ∈ [[], ['#'], ['0', 'x']], cs = lead ++ c :: d :: rest := by
  have hhash : c ≠ '#' := hc.ne rfl
  have hx : d ≠ 'x' := hd.ne rfl
  unfold hexDigits
  simp only [List.mem_cons, List.not_mem_nil, or_false, exists_eq_or_imp, exists_eq_left]
  split
  · simp [hhash.symm]
  · simp [hx.symm]
  · next hno hnox => exact (or_iff_left fun h => h.elim (hno _) (hnox _)).symm

theorem head?_map_toLower_ne {lead rest : List Char} {c : Char} {a : Nat}
    (hlead : lead ∈ [[], ['#'], ['0', 'x']]) (hc : IsDigit c a) :
    ((lead ++ c :: rest).map toLower).head? ≠ some 'r' := by
  have hfirst : toLower c ≠ 'r' := (isDigit_toLower_iff.mpr hc).ne rfl
  simp only [List.mem_cons, List.not_mem_nil, or_false] at hlead
  rcases hlead with rfl | rfl | rfl
  · simpa using hfirst
  · simp [toLower]
  · simp [toLower]

theorem color_eq_ok_iff {part : List Char} {x : Color} :
    color (String.ofList part) = .ok x ↔
      IsColor IsDigitOrPlus (Text.trimWhere Text.isBlank part) x := by
  unfold color
  rw [Text.trim, String.toList_ofList]
  generalize Text.trimWhere Text.isBlank part = text
  dsimp only
  rw [String.toList_ofList]
  constructor
  · intro h
    split at h
    · contradiction
    · split at h
      · next lower heq =>
          -- The match is on the text in lower case, so it is taken back to the text itself.
          have happend : text.map toLower = ['r', 'g', 'b', ':'] ++ lower := heq
          obtain ⟨mark, channels, rfl, hmark, rfl⟩ := List.map_eq_append_iff.mp happend
          obtain ⟨r, g, b, red, green, blue, hsplit, hr, hg, hb, rfl⟩ := rgbColor_eq_ok_iff.mp h
          rw [funext toLower_eq] at hmark
          exact .rgb hmark hsplit hr hg hb
      · obtain ⟨c, d, e, f, g, h, red, green, blue, hdigits, hred, hgreen, hblue, rfl⟩ :=
          hexColor_eq_ok_iff.mp h
        rw [String.toList_ofList] at hdigits
        obtain ⟨a, b, ha, hb, -⟩ := id hred
        obtain ⟨lead, hlead, rfl⟩ := (hexDigits_eq_iff ha hb).mp hdigits
        exact .hex hlead hred hgreen hblue
  · intro h
    cases h with
    | @rgb mark channels r g b red green blue hmark hsplit hr hg hb =>
        rw [← funext toLower_eq] at hmark
        have hlower : (mark ++ channels).map toLower =
            'r' :: 'g' :: 'b' :: ':' :: channels.map toLower := by
          rw [List.map_append, hmark]
          rfl
        have hne : mark ++ channels ≠ [] := fun hnil => by simp [hnil] at hlower
        rw [if_neg (by simpa using hne), hlower]
        exact rgbColor_eq_ok_iff.mpr ⟨r, g, b, red, green, blue, hsplit, hr, hg, hb, rfl⟩
    | @hex lead c d e f g h red green blue hlead hred hgreen hblue =>
        obtain ⟨a, b, ha, hb, -⟩ := id hred
        rw [if_neg (by simp)]
        split
        · next lower heq =>
            exact absurd (congrArg List.head? heq) (head?_map_toLower_ne hlead ha)
        · refine hexColor_eq_ok_iff.mpr ⟨c, d, e, f, g, h, red, green, blue, ?_, hred, hgreen,
            hblue, rfl⟩
          rw [String.toList_ofList]
          exact (hexDigits_eq_iff ha hb).mpr ⟨lead, hlead, rfl⟩

/-! ## Palettes -/

theorem toList_colors (p : Palette) : p.colors.toList = p.fg :: p.bg :: List.ofFn p.ansi := by
  refine List.ext_getElem (by simp) fun i _ _ => ?_
  match i with
  | 0 => rfl
  | 1 => rfl
  | i + 2 =>
      simp only [List.getElem_cons_succ, List.getElem_ofFn, Vector.getElem_toList, ansi]

theorem mapM_color_eq_ok_iff {cs : List Char} {p : Palette} :
    (cs.splitOn ',').mapM (fun part => color (String.ofList part)) = .ok p.colors.toList ↔
      IsPalette IsDigitOrPlus cs p := by
  simp only [Text.mapM_eq_ok_iff, color_eq_ok_iff, toList_colors, IsPalette]

theorem parse_eq_ok_iff {text : String} {p : Palette} :
    parse text = .ok p ↔ IsPalette IsDigitOrPlus text.toList p := by
  rw [← mapM_color_eq_ok_iff, parse]
  constructor
  · intro h
    split at h
    · contradiction
    · obtain ⟨colors, hmap, h⟩ := Text.bind_eq_ok_iff.mp h
      split at h
      · obtain rfl := Text.pure_eq_ok_iff.mp h
        exact hmap
      · contradiction
  · intro h
    have hlength : (text.toList.splitOn ',').length = 18 := by
      rw [(Text.mapM_eq_ok_iff.mp h).length_eq, Vector.length_toList]
    rw [if_neg (by simp [hlength])]
    refine Text.bind_eq_ok_iff.mpr ⟨_, h, ?_⟩
    rw [dif_pos (by simp)]
    rfl

theorem isPalette_trimWhere {First : Char → Nat → Prop} {cs : List Char} {p : Palette} :
    IsPalette First (Text.trimWhere Text.isBlank cs) p ↔ IsPalette First cs p := by
  have hcomma : Text.isBlank ',' = false := by decide
  rw [IsPalette, IsPalette, ← List.forall₂_map_left_iff (R := IsColor First),
    Text.map_trimWhere_splitOn_trimWhere hcomma, List.forall₂_map_left_iff]

theorem not_isPalette_nil {First : Char → Nat → Prop} {p : Palette} : ¬IsPalette First [] p := by
  intro h
  have hlength := h.length_eq
  rw [List.splitOn_nil] at hlength
  simp at hlength

/-! ## Plus signs -/

section

variable {c d : Char} {n : UInt8} {cs : List Char}

theorem isPair_isDigit_iff :
    IsPair IsDigit c d n ↔ IsPair IsDigitOrPlus c d n ∧ '+' ∉ [c, d] := by
  constructor
  · rintro ⟨a, b, ha, hb, hn⟩
    exact ⟨⟨a, b, .inl ha, hb, hn⟩, by simp [ha.ne_plus, hb.ne_plus]⟩
  · rintro ⟨⟨a, b, ha, hb, hn⟩, hplus⟩
    rw [List.mem_cons, not_or] at hplus
    exact ⟨a, b, ha.resolve_right fun h => hplus.1 h.1.symm, hb, hn⟩

theorem isChannel_isDigit_iff :
    IsChannel IsDigit cs n ↔ IsChannel IsDigitOrPlus cs n ∧ '+' ∉ cs := by
  have hfour {c d e f : Char} {a b : Nat} (he : IsDigit e a) (hf : IsDigit f b) :
      '+' ∉ [c, d, e, f] ↔ '+' ∉ [c, d] := by
    simp [he.ne_plus, hf.ne_plus]
  constructor
  · intro h
    cases h with
    | two hpair =>
        obtain ⟨hpair, hplus⟩ := isPair_isDigit_iff.mp hpair
        exact ⟨.two hpair, hplus⟩
    | four hpair he hf =>
        obtain ⟨hpair, hplus⟩ := isPair_isDigit_iff.mp hpair
        exact ⟨.four hpair he hf, (hfour he hf).mpr hplus⟩
  · rintro ⟨h, hplus⟩
    cases h with
    | two hpair => exact .two (isPair_isDigit_iff.mpr ⟨hpair, hplus⟩)
    | four hpair he hf =>
        exact .four (isPair_isDigit_iff.mpr ⟨hpair, (hfour he hf).mp hplus⟩) he hf

theorem plus_mem_iff {mark channels r g b : List Char}
    (hmark : mark.map Char.toLower = ['r', 'g', 'b', ':'])
    (hsplit : channels.splitOn '/' = [r, g, b]) :
    '+' ∈ mark ++ channels ↔ '+' ∈ Text.trimWhere Text.isBlank r ∨
      '+' ∈ Text.trimWhere Text.isBlank g ∨ '+' ∈ Text.trimWhere Text.isBlank b := by
  have hblank : Text.isBlank '+' = false := by decide
  have hnotMem : '+' ∉ mark := by
    intro h
    have hlower := List.mem_map_of_mem (f := Char.toLower) h
    rw [hmark] at hlower
    contradiction
  rw [List.mem_append, or_iff_right hnotMem,
    ← Text.exists_mem_splitOn_iff (by decide : '+' ≠ '/'), hsplit]
  simp [Text.mem_trimWhere hblank]

theorem isColor_isDigit_iff {x : Color} :
    IsColor IsDigit cs x ↔ IsColor IsDigitOrPlus cs x ∧ '+' ∉ cs := by
  constructor
  · intro h
    cases h with
    | rgb hmark hsplit hr hg hb =>
        rw [plus_mem_iff hmark hsplit]
        rw [isChannel_isDigit_iff] at hr hg hb
        exact ⟨.rgb hmark hsplit hr.1 hg.1 hb.1, by simp [hr.2, hg.2, hb.2]⟩
    | hex hlead hred hgreen hblue =>
        have hred' := (isPair_isDigit_iff.mp hred).2
        have hgreen' := (isPair_isDigit_iff.mp hgreen).2
        have hblue' := (isPair_isDigit_iff.mp hblue).2
        refine ⟨.hex hlead hred hgreen hblue, ?_⟩
        simp only [List.mem_cons, List.not_mem_nil, or_false, not_or] at hlead hred' hgreen' hblue'
        rcases hlead with rfl | rfl | rfl <;> simp [hred', hgreen', hblue']
  · rintro ⟨h, hplus⟩
    cases h with
    | rgb hmark hsplit hr hg hb =>
        rw [plus_mem_iff hmark hsplit, not_or, not_or] at hplus
        exact .rgb hmark hsplit (isChannel_isDigit_iff.mpr ⟨hr, hplus.1⟩)
          (isChannel_isDigit_iff.mpr ⟨hg, hplus.2.1⟩) (isChannel_isDigit_iff.mpr ⟨hb, hplus.2.2⟩)
    | hex hlead hred hgreen hblue => exact .hex hlead hred hgreen hblue

theorem isPalette_isDigit_iff {p : Palette} :
    IsPalette IsDigit cs p ↔ IsPalette IsDigitOrPlus cs p ∧ '+' ∉ cs := by
  have hblank : Text.isBlank '+' = false := by decide
  have hplus : '+' ∉ cs ↔ ∀ part ∈ cs.splitOn ',', '+' ∉ Text.trimWhere Text.isBlank part := by
    simp only [← Text.exists_mem_splitOn_iff (by decide : '+' ≠ ',') cs, Text.mem_trimWhere hblank,
      not_exists, not_and]
  simp only [IsPalette, isColor_isDigit_iff, hplus, and_comm, List.forall₂_and_left]

end

end Palette

namespace Theme

open Palette Text.Hex

theorem ofText_eq_none_iff {text : String} :
    ofText text = .ok ⟨none⟩ ↔ Text.isBlankText text = true := by
  have hblank : Text.isBlankText text = true ↔ (Text.trim text).isEmpty = true := by
    rw [Text.isBlankText, List.all_eq_true, ← Text.trimWhere_eq_nil_iff, Text.trim]
    simp
  rw [hblank, ofText]
  split
  · next hempty => simp [hempty]
  · next hempty =>
      split <;> simp [hempty]

theorem ofText_eq_some_iff {text : String} {p : Palette} :
    ofText text = .ok ⟨some p⟩ ↔ IsPalette IsDigitOrPlus text.toList p := by
  have htrim : (Text.trim text).toList = Text.trimWhere Text.isBlank text.toList :=
    String.toList_ofList
  rw [← isPalette_trimWhere, ← htrim, ofText]
  split
  · next hempty =>
      have hnil : (Text.trim text).toList = [] := by simpa using hempty
      rw [hnil]
      simp [not_isPalette_nil]
  · next hempty =>
      rw [← parse_eq_ok_iff]
      split <;> simp [*]

/-- A blank text is no palette. Any other is a palette if it is in the grammar where a channel may
begin with a plus sign, and the palettes with digits only are those that have no plus sign. -/
theorem ofText_eq_ok_iff_grammar (text : String) :
    (ofText text = .ok ⟨none⟩ ↔ Text.isBlankText text = true) ∧
      ∀ p, (ofText text = .ok ⟨some p⟩ ↔ IsPalette IsDigitOrPlus text.toList p) ∧
        (IsPalette IsDigit text.toList p ↔ ofText text = .ok ⟨some p⟩ ∧ '+' ∉ text.toList) := by
  refine ⟨ofText_eq_none_iff, fun p => ⟨ofText_eq_some_iff, ?_⟩⟩
  rw [isPalette_isDigit_iff, ofText_eq_some_iff]

/-- The component `+f` is read as the digit. -/
theorem ofText_ok_of_plus_sign :
    let text := "rgb:+f/00/00" ++ String.join (List.replicate 17 ",000000")
    (∃ p : Palette, ofText text = .ok ⟨some p⟩ ∧ p.fg = .rgb 15 0 0) ∧
      Text.isBlankText text = false ∧ ¬∃ p, IsPalette IsDigit text.toList p := by
  intro text
  have htext : text.toList =
      "rgb:+f/00/00".toList ++ (List.replicate 17 ",000000").flatMap String.toList := by
    rw [String.toList_append, String.toList_join]
  let p : Palette := ⟨Vector.ofFn fun i => if i = 0 then .rgb 15 0 0 else .rgb 0 0 0⟩
  have haccepted : ofText text = .ok ⟨some p⟩ := by
    rw [ofText_eq_some_iff, htext, ← mapM_color_eq_ok_iff]
    decide +kernel
  have hfg : p.fg = .rgb 15 0 0 := by decide
  refine ⟨⟨p, haccepted, hfg⟩, ?_, ?_⟩
  · refine Bool.eq_false_iff.mpr fun hblank => ?_
    rw [← ofText_eq_none_iff, haccepted] at hblank
    simp at hblank
  · rintro ⟨q, hq⟩
    have hplus := (isPalette_isDigit_iff.mp hq).2
    rw [htext] at hplus
    exact hplus (List.mem_append_left _ (by decide))

end Theme

end RevisionGraph

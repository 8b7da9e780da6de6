import Mathlib.Data.Fintype.Basic
import Mathlib.Data.List.Chain
import Mathlib.Data.List.Perm.Basic
import Mathlib.Tactic.FinCases
import RevisionGraph.Proofs.Encoding
import RevisionGraph.Proofs.Reading

/-!
# Written lines are read back

A writer resets the terminal before each segment and sets the style of the segment by one sequence.
The decoder gives out a segment when the pen changes behind it, so a line comes back as it was as
long as neighbouring segments differ in style (`decodeLines_written`).
-/

namespace RevisionGraph

open Text.Utf8 (bytes)

/-! ## What a sequence sets -/

def Modifier.code : Modifier → Nat
  | .bold => 1
  | .dim => 2
  | .italic => 3
  | .underlined => 4
  | .slowBlink => 5
  | .rapidBlink => 6
  | .reversed => 7
  | .hidden => 8
  | .crossedOut => 9

namespace Sgr

inductive Setting where
  | modifier (m : Modifier)
  | color (layer : Layer) (c : Color)
  deriving DecidableEq, Repr

def Layer.base : Layer → Nat
  | .foreground => 30
  | .background => 40

namespace Setting

def codes : Setting → List Nat
  | .modifier m => [m.code]
  | .color layer .reset => [layer.base + 9]
  | .color layer (.ansi n) => [if n.val < 8 then layer.base + n.val else layer.base + 52 + n.val]
  | .color layer (.indexed n) => [layer.base + 8, 5, n.toNat]
  | .color layer (.rgb r g b) => [layer.base + 8, 2, r.toNat, g.toNat, b.toNat]

def apply (pen : Pen) : Setting → Pen
  | .modifier m => turnOn pen m
  | .color layer .reset => setLayer pen none layer
  | .color layer c => setLayer pen (some c) layer

theorem codes_ne_nil (s : Setting) : s.codes ≠ [] := by
  cases s with
  | modifier m => simp [codes]
  | color layer c => cases c <;> simp [codes]

theorem le_of_mem_codes {s : Setting} {n : Nat} (h : n ∈ s.codes) : n ≤ 255 := by
  have hbyte (b : UInt8) : b.toNat ≤ 255 := Nat.le_of_lt_succ b.toNat_lt
  have hbase (layer : Layer) : layer.base ≤ 40 := by cases layer <;> decide
  cases s with
  | modifier m =>
      obtain rfl := List.mem_singleton.mp h
      cases m <;> decide
  | color layer c =>
      have := hbase layer
      cases c with
      | reset =>
          obtain rfl := List.mem_singleton.mp h
          omega
      | ansi n =>
          obtain rfl := List.mem_singleton.mp h
          split <;> omega
      | indexed n =>
          simp only [codes, List.mem_cons, List.not_mem_nil, or_false] at h
          rcases h with rfl | rfl | rfl
          · omega
          · decide
          · apply hbyte
      | rgb r g b =>
          simp only [codes, List.mem_cons, List.not_mem_nil, or_false] at h
          rcases h with rfl | rfl | rfl | rfl | rfl
          · omega
          · decide
          · apply hbyte
          · apply hbyte
          · apply hbyte

theorem byte_toNat (n : UInt8) : byte n.toNat = n := by
  have hn : min n.toNat 255 = n.toNat := by
    have := n.toNat_lt
    omega
  rw [byte, hn, UInt8.ofNat_toNat]

theorem run_codes (s : Setting) (pen : Pen) :
    State.run ⟨pen, .code⟩ s.codes = ⟨s.apply pen, .code⟩ := by
  cases s with
  | modifier m => cases m <;> rfl
  | color layer c =>
      cases c with
      | reset => cases layer <;> rfl
      | ansi n => cases layer <;> fin_cases n <;> rfl
      | indexed n =>
          have hrun : State.run ⟨pen, .code⟩ (codes (.color layer (.indexed n))) =
              ⟨setLayer pen (some (.indexed (byte n.toNat))) layer, .code⟩ := by
            cases layer <;> rfl
          rw [hrun, byte_toNat]
          rfl
      | rgb r g b =>
          have hrun : State.run ⟨pen, .code⟩ (codes (.color layer (.rgb r g b))) =
              ⟨setLayer pen (some (.rgb (byte r.toNat) (byte g.toNat) (byte b.toNat))) layer,
                .code⟩ := by
            cases layer <;> rfl
          rw [hrun, byte_toNat, byte_toNat, byte_toNat]
          rfl

theorem run_flatMap_codes (settings : List Setting) (pen : Pen) :
    State.run ⟨pen, .code⟩ (settings.flatMap codes) = ⟨settings.foldl apply pen, .code⟩ := by
  induction settings generalizing pen with
  | nil => rfl
  | cons s rest ih => rw [List.flatMap_cons, State.run_append, run_codes, ih, List.foldl_cons]

theorem apply_comm {s t : Setting}
    (h : ∀ layer c c', s = .color layer c → t = .color layer c' → c = c') (pen : Pen) :
    (s.apply pen |> t.apply) = (t.apply pen |> s.apply) := by
  have hmodifier (m : Modifier) (layer : Layer) (c : Color) :
      apply (apply pen (.modifier m)) (.color layer c) =
        apply (apply pen (.color layer c)) (.modifier m) := by
    cases layer <;> cases c <;> rfl
  cases s with
  | modifier m =>
      cases t with
      | modifier m' =>
          simp only [apply, turnOn, Pen.mk.injEq, true_and]
          apply Modifiers.ext_has
          intro n
          simp [Bool.or_right_comm]
      | color layer c => exact hmodifier m layer c
  | color layer c =>
      cases t with
      | modifier m => exact (hmodifier m layer c).symm
      | color layer' c' =>
          cases layer <;> cases layer'
          · rw [h .foreground c c' rfl rfl]
          · cases c <;> cases c' <;> rfl
          · cases c <;> cases c' <;> rfl
          · rw [h .background c c' rfl rfl]

end Setting

end Sgr

/-! ## Settings of a style -/

namespace Style

def settings (s : Style) : List Sgr.Setting :=
  s.added.toList.map .modifier ++ s.fg.toList.map (.color .foreground) ++
    s.bg.toList.map (.color .background)

structure IsWritable (s : Style) : Prop where
  removed : s.removed = .empty
  fg : s.fg ≠ some .reset
  bg : s.bg ≠ some .reset

def pen (s : Style) : Pen :=
  ⟨s.fg, s.bg, s.added⟩

variable {s : Style}

theorem IsWritable.style_pen (h : s.IsWritable) : s.pen.style = s := by
  obtain ⟨fg, bg, added, removed⟩ := s
  have hremoved : removed = .empty := h.removed
  rw [hremoved]
  rfl

theorem settings_ne_nil (h : s.IsWritable) (hplain : s ≠ .plain) : s.settings ≠ [] := by
  intro hnil
  apply hplain
  simp only [settings, List.append_eq_nil_iff, List.map_eq_nil_iff, Option.toList_eq_nil_iff]
    at hnil
  obtain ⟨⟨hadded, hfg⟩, hbg⟩ := hnil
  have hempty : s.added = .empty := by
    rw [← Modifiers.ofList_toList s.added, hadded]
    rfl
  rw [← h.style_pen]
  simp only [pen, hfg, hbg, hempty]
  rfl

theorem foldl_modifiers (ms : List Modifier) (pen : Pen) :
    (ms.map Sgr.Setting.modifier).foldl Sgr.Setting.apply pen =
      { pen with modifiers := pen.modifiers.union (.ofList ms) } := by
  induction ms generalizing pen with
  | nil =>
      have hnone : pen.modifiers.union (.ofList []) = pen.modifiers := by
        apply Modifiers.ext_has
        simp
      rw [hnone]
      rfl
  | cons m ms ih =>
      rw [List.map_cons, List.foldl_cons, ih]
      simp only [Sgr.Setting.apply, Sgr.turnOn, Pen.mk.injEq, true_and]
      apply Modifiers.ext_has
      intro n
      simp [Bool.or_assoc]

theorem foldl_settings (h : s.IsWritable) : s.settings.foldl Sgr.Setting.apply .default = s.pen := by
  have hadded : Modifiers.empty.union s.added = s.added := by
    apply Modifiers.ext_has
    simp
  rw [settings, List.foldl_append, List.foldl_append, foldl_modifiers, Modifiers.ofList_toList]
  simp only [Pen.default, hadded]
  have hfg := h.fg
  have hbg := h.bg
  obtain ⟨fg, bg, added, removed⟩ := s
  have hlayer (layer : Sgr.Layer) (c : Option Color) (pen : Pen) (hc : c ≠ some .reset) :
      (c.toList.map (Sgr.Setting.color layer)).foldl Sgr.Setting.apply pen =
        if c = none then pen else Sgr.setLayer pen c layer := by
    cases c with
    | none => rfl
    | some c => cases c <;> first | contradiction | rfl
  rw [hlayer .foreground fg _ hfg, hlayer .background bg _ hbg]
  cases fg <;> cases bg <;> rfl

theorem color_unique {layer : Sgr.Layer} {c c' : Color}
    (h : Sgr.Setting.color layer c ∈ s.settings) (h' : Sgr.Setting.color layer c' ∈ s.settings) :
    c = c' := by
  cases layer with
  | foreground =>
      have hfg : s.fg = some c := by simpa [settings] using h
      have hfg' : s.fg = some c' := by simpa [settings] using h'
      exact Option.some.inj (hfg.symm.trans hfg')
  | background =>
      have hbg : s.bg = some c := by simpa [settings] using h
      have hbg' : s.bg = some c' := by simpa [settings] using h'
      exact Option.some.inj (hbg.symm.trans hbg')

theorem foldl_of_perm (h : s.IsWritable) {settings : List Sgr.Setting}
    (hperm : settings.Perm s.settings) : settings.foldl Sgr.Setting.apply .default = s.pen := by
  rw [← foldl_settings h]
  apply hperm.foldl_eq'
  intro x hx y hy pen
  apply Sgr.Setting.apply_comm
  rintro layer c c' rfl rfl
  exact color_unique (hperm.mem_iff.mp hx) (hperm.mem_iff.mp hy)

end Style

/-! ## Sequences -/

namespace Sgr

def digits (n : Nat) : List UInt8 :=
  bytes n.repr

theorem digits_eq (n : Nat) :
    digits n = if n < 10 then [UInt8.ofNat (0x30 + n)]
      else digits (n / 10) ++ [UInt8.ofNat (0x30 + n % 10)] := by
  have hchar : ∀ d < 10, Text.Utf8.encodeChar (Nat.digitChar d) = [UInt8.ofNat (0x30 + d)] := by
    decide
  simp only [digits, bytes, Text.Utf8.encode, Nat.toList_repr]
  rw [Nat.toDigits_eq_if (by decide)]
  split
  · next hn => simp [hchar n hn]
  · next hn => simp [hchar (n % 10) (Nat.mod_lt n (by decide))]

theorem isDigit_ofNat {d : Nat} (h : d < 10) : isDigit (UInt8.ofNat (0x30 + d)) = true := by
  revert d
  decide

theorem isDigit_of_mem_digits {n : Nat} {b : UInt8} (h : b ∈ digits n) : isDigit b = true := by
  induction n using Nat.strongRecOn with
  | _ n ih =>
      rw [digits_eq] at h
      split at h
      · next hn =>
          rw [List.mem_singleton.mp h]
          exact isDigit_ofNat hn
      · rcases List.mem_append.mp h with h | h
        · exact ih (n / 10) (by omega) h
        · rw [List.mem_singleton.mp h]
          exact isDigit_ofNat (Nat.mod_lt n (by decide))

theorem toNat_of_isDigit {b : UInt8} (h : isDigit b = true) : 0x30 ≤ b.toNat ∧ b.toNat ≤ 0x39 := by
  simpa [isDigit, UInt8.le_iff_toNat_le] using h

theorem value_append_digit {run : List UInt8} (hrun : ∀ b ∈ run, isDigit b = true) {d : Nat}
    (hd : d < 10) :
    value (run ++ [UInt8.ofNat (0x30 + d)]) =
      min (min (value run * 10) maxValue + d) maxValue := by
  have hall : ∀ b ∈ run ++ [UInt8.ofNat (0x30 + d)], isDigit b = true := by
    intro b hb
    rcases List.mem_append.mp hb with hb | hb
    · exact hrun b hb
    · rw [List.mem_singleton.mp hb]
      exact isDigit_ofNat hd
  have hlast : (UInt8.ofNat (0x30 + d)).toNat - 0x30 = d := by
    rw [UInt8.toNat_ofNat_of_lt' (show 0x30 + d < 256 by omega)]
    omega
  rw [value, value, List.takeWhile_eq_self_iff.mpr hall, List.takeWhile_eq_self_iff.mpr hrun,
    List.foldl_append, List.foldl_cons, List.foldl_nil, hlast]

theorem value_digits {n : Nat} (h : n ≤ maxValue) : value (digits n) = n := by
  induction n using Nat.strongRecOn with
  | _ n ih =>
      rw [digits_eq]
      split
      · next hn =>
          rw [← List.nil_append [_], value_append_digit (by simp) hn]
          simp only [value, List.takeWhile_nil, List.foldl_nil]
          omega
      · rw [value_append_digit (fun b => isDigit_of_mem_digits) (Nat.mod_lt n (by decide)),
          ih (n / 10) (by omega) (by omega)]
        omega

def joined (codes : List Nat) : List UInt8 :=
  List.intercalate [0x3B] (codes.map digits)

theorem parameters_joined {codes : List Nat} (hne : codes ≠ []) (h : ∀ n ∈ codes, n ≤ maxValue) :
    parameters (joined codes) = codes := by
  have hdigits (n : Nat) : ∀ b ∈ digits n, isSeparator b = false := by
    intro b hb
    have hdigit := toNat_of_isDigit (isDigit_of_mem_digits hb)
    simp only [isSeparator, Bool.or_eq_false_iff, beq_eq_false_iff_ne, ne_eq]
    constructor
    · rintro rfl
      exact absurd hdigit (by decide)
    · rintro rfl
      exact absurd hdigit (by decide)
  induction codes with
  | nil => contradiction
  | cons n rest ih =>
      have hn := value_digits (h n (by simp))
      cases rest with
      | nil =>
          simp only [parameters, joined, List.map_cons, List.map_nil, List.intercalate_singleton]
          rw [List.splitOnP_eq_singleton (hdigits n), List.map_singleton, hn]
      | cons m rest =>
          have hrest := ih (by simp) fun k hk => h k (by simp [hk])
          simp only [parameters, joined, List.map_cons, List.intercalate_cons_cons] at hrest ⊢
          rw [List.append_assoc, List.singleton_append,
            List.splitOnP_append_cons_of_forall_mem (hdigits n) 0x3B rfl, List.map_cons, hn, hrest]

theorem mem_joined {codes : List Nat} {b : UInt8} (h : b ∈ joined codes) :
    b = 0x3B ∨ isDigit b = true := by
  induction codes with
  | nil => contradiction
  | cons n rest ih =>
      cases rest with
      | nil => exact .inr (isDigit_of_mem_digits (by simpa [joined] using h))
      | cons m rest =>
          simp only [joined, List.map_cons, List.intercalate_cons_cons, List.mem_append,
            List.mem_singleton] at h ih
          rcases h with (hdigits | hseparator) | hrest
          · exact .inr (isDigit_of_mem_digits hdigits)
          · exact .inl hseparator
          · exact ih hrest

def sequence (codes : List Nat) : String :=
  "\x1B[" ++ String.intercalate ";" (codes.map Nat.repr) ++ "m"

theorem bytes_sequence (codes : List Nat) :
    bytes (sequence codes) = 0x1B :: 0x5B :: (joined codes ++ [0x6D]) := by
  rw [sequence, Text.Utf8.bytes_append, Text.Utf8.bytes_append, Text.Utf8.bytes_intercalate,
    List.map_map]
  rfl

end Sgr

/-! ## Reading a sequence -/

namespace Decoder

/-- Takes a pen over. The text held is given out only if the pen is another one. -/
def setPen (d : Decoder) (pen : Pen) : Decoder × List Chunk :=
  if pen = d.pen then ({ d with mode := .text }, []) else (⟨.text, pen, #[]⟩, d.heldChunks)

theorem isFinal_of_mem_joined {codes : List Nat} {b : UInt8} (h : b ∈ Sgr.joined codes) :
    isFinal b = false := by
  rcases Sgr.mem_joined h with rfl | hdigit
  · rfl
  · have hlow : ¬ (0x40 : UInt8) ≤ b := by
      have hbounds := Sgr.toNat_of_isDigit hdigit
      rw [UInt8.le_iff_toNat_le]
      exact Nat.not_le_of_lt (Nat.lt_of_le_of_lt hbounds.2 (by decide))
    simp [isFinal, hlow]

theorem mode_setPen (d : Decoder) (pen : Pen) : (d.setPen pen).1.mode = .text := by
  unfold setPen
  split <;> rfl

theorem pen_setPen (d : Decoder) (pen : Pen) : (d.setPen pen).1.pen = pen := by
  unfold setPen
  split
  · next hsame => exact hsame.symm
  · rfl

theorem feed_parameters {d : Decoder} (hd : d.mode = .text) {parameters : List UInt8}
    (h : ∀ b ∈ parameters, isFinal b = false) :
    d.feed (0x1B :: 0x5B :: (parameters ++ [0x6D])) = d.setPen (Sgr.apply d.pen parameters) :=
  feed_controlSequence hd h 0x6D

theorem feed_sequence {d : Decoder} (hd : d.mode = .text) {codes : List Nat} (hne : codes ≠ [])
    (h : ∀ n ∈ codes, n ≤ 255) :
    d.feed (bytes (Sgr.sequence codes)) =
      d.setPen (Sgr.State.run ⟨d.pen, .code⟩ codes).pen := by
  have hparameters := Sgr.parameters_joined hne fun n hn =>
    (h n hn).trans (by decide : 255 ≤ Sgr.maxValue)
  rw [Sgr.bytes_sequence, feed_parameters hd (fun b => isFinal_of_mem_joined), Sgr.apply,
    hparameters]

end Decoder

/-! ## Writing -/

variable (order : List Sgr.Setting → List Sgr.Setting)

/-- The segment behind a reset, and behind one sequence if its style is not the plain one. The
settings of the sequence stand in some order. -/
def Segment.written (s : Segment) : String :=
  Sgr.sequence [0] ++
    (if s.style = .plain then "" else
      Sgr.sequence ((order s.style.settings).flatMap Sgr.Setting.codes)) ++
    s.text

def Line.written (line : Line) : String :=
  String.join (line.map (Segment.written order)) ++ "\n"

def writtenLines (lines : List Line) : String :=
  String.join (lines.map (Line.written order))

structure Segment.IsWritable (s : Segment) : Prop where
  text_ne : s.text ≠ ""
  unbroken : ∀ c ∈ s.text.toList, c ≠ '\x1B' ∧ c ≠ '\n' ∧ c ≠ '\r'
  style : s.style.IsWritable

structure Line.IsWritable (line : Line) : Prop where
  segments : ∀ s ∈ line, s.IsWritable
  styles : line.IsChain fun s t => s.style ≠ t.style

/-! ## Reading what was written -/

namespace Decoder

variable {order} {d : Decoder} {s : Segment}

theorem feed_reset (hd : d.mode = .text) :
    d.feed (bytes (Sgr.sequence [0])) = d.setPen .default :=
  feed_sequence hd (by simp) (by simp)

theorem feed_style (horder : ∀ settings, (order settings).Perm settings) (hd : d.mode = .text)
    (hpen : d.pen = .default) (hs : s.style.IsWritable) :
    d.feed (bytes (if s.style = .plain then "" else
        Sgr.sequence ((order s.style.settings).flatMap Sgr.Setting.codes))) =
      d.setPen s.style.pen := by
  have hperm := horder s.style.settings
  split
  · next hplain =>
      have hnone : bytes "" = [] := rfl
      have hsame : s.style.pen = d.pen := by
        rw [hplain, hpen]
        rfl
      rw [hnone, feed_nil, setPen, if_pos hsame, ← hd]
  · next hplain =>
      have hne : (order s.style.settings).flatMap Sgr.Setting.codes ≠ [] := by
        obtain ⟨setting, hsetting⟩ := List.exists_mem_of_ne_nil _ (Style.settings_ne_nil hs hplain)
        intro hnil
        exact setting.codes_ne_nil (List.flatMap_eq_nil_iff.mp hnil _ (hperm.mem_iff.mpr hsetting))
      have hle : ∀ n ∈ (order s.style.settings).flatMap Sgr.Setting.codes, n ≤ 255 := by
        intro n hn
        obtain ⟨setting, -, hmem⟩ := List.mem_flatMap.mp hn
        exact Sgr.Setting.le_of_mem_codes hmem
      rw [feed_sequence hd hne hle, Sgr.Setting.run_flatMap_codes, hpen,
        Style.foldl_of_perm hs hperm]

theorem heldChunks_of_empty (h : d.held = #[]) : d.heldChunks = [] := by
  rw [heldChunks, h]
  rfl

theorem setPen_same {p : Pen} (h : p = d.pen) : d.setPen p = ({ d with mode := .text }, []) :=
  if_pos h

theorem setPen_other {p : Pen} (h : p ≠ d.pen) : d.setPen p = (⟨.text, p, #[]⟩, d.heldChunks) :=
  if_neg h

theorem setPen_setPen (p q : Pen) (h : d.held = #[] ∨ d.pen ≠ q) :
    (((d.setPen p).1.setPen q).1, (d.setPen p).2 ++ ((d.setPen p).1.setPen q).2) =
      (⟨.text, q, #[]⟩, d.heldChunks) := by
  by_cases hp : p = d.pen
  · rw [setPen_same hp]
    by_cases hq : q = d.pen
    · have hheld : d.held = #[] := h.resolve_right fun hne => hne hq.symm
      rw [setPen_same (by exact hq), heldChunks_of_empty hheld, hheld, hq]
      rfl
    · rw [setPen_other (by exact hq)]
      rfl
  · rw [setPen_other hp]
    by_cases hq : q = p
    · rw [setPen_same (by exact hq), hq, List.append_nil]
    · have hnone : heldChunks ⟨.text, p, #[]⟩ = [] := rfl
      rw [setPen_other (by exact hq), hnone, List.append_nil]

theorem feed_segment (horder : ∀ settings, (order settings).Perm settings) (hd : d.mode = .text)
    (hs : s.IsWritable) (hheld : d.held = #[] ∨ d.style ≠ s.style) :
    d.feed (bytes (s.written order)) =
      (⟨.text, s.style.pen, (bytes s.text).toArray⟩, d.heldChunks) := by
  have hother : d.held = #[] ∨ d.pen ≠ s.style.pen := by
    apply hheld.imp_right
    intro hne hsame
    apply hne
    rw [style, hsame, hs.style.style_pen]
  have hstyle : d.feed (bytes (Sgr.sequence [0]) ++ bytes (if s.style = .plain then "" else
      Sgr.sequence ((order s.style.settings).flatMap Sgr.Setting.codes))) =
        (⟨.text, s.style.pen, #[]⟩, d.heldChunks) := by
    rw [feed_append, feed_reset hd, feed_style horder (mode_setPen ..) (pen_setPen ..) hs.style,
      setPen_setPen _ _ hother]
  have htext : ∀ b ∈ bytes s.text, endsText b = false := fun b hb =>
    endsText_of_mem_encode hs.unbroken hb
  rw [Segment.written, Text.Utf8.bytes_append, Text.Utf8.bytes_append, feed_append, hstyle,
    feed_text rfl htext]
  simp

theorem heldChunks_segment (hs : s.IsWritable) :
    heldChunks ⟨.text, s.style.pen, (bytes s.text).toArray⟩ = [.segment s] := by
  have hne : (bytes s.text).toArray.isEmpty = false := by
    simpa using Text.Utf8.bytes_ne_nil hs.text_ne
  simp only [heldChunks, style, hne, hs.style.style_pen, Text.Utf8.text_bytes]
  rfl

theorem feed_line (horder : ∀ settings, (order settings).Perm settings) (hd : d.mode = .text)
    {line : Line} (hline : line.IsWritable)
    (hheld : d.held = #[] ∨ ∀ s ∈ line.head?, d.style ≠ s.style) :
    ∃ pen, d.feed (bytes (line.written order)) =
      (⟨.text, pen, #[]⟩, d.heldChunks ++ line.map .segment ++ [.lineBreak]) := by
  induction line generalizing d with
  | nil =>
      refine ⟨d.pen, ?_⟩
      have hbreak : d.step 0x0A = (⟨.text, d.pen, #[]⟩, d.heldChunks ++ [.lineBreak]) := by
        simp [step, hd]
      have hbytes : bytes (Line.written order []) = [0x0A] := by
        simp only [Line.written, List.map_nil, String.join_nil, String.empty_append]
        rfl
      rw [hbytes, feed_cons, hbreak, feed_nil]
      simp
  | cons s rest ih =>
      have hs := hline.segments s (by simp)
      obtain ⟨hnext, hchain⟩ := List.isChain_cons.mp hline.styles
      have hrest : Line.IsWritable rest :=
        ⟨fun t ht => hline.segments t (List.mem_cons_of_mem s ht), hchain⟩
      have hsegment := feed_segment horder hd hs (hheld.imp_right fun h => h s rfl)
      have hcons : bytes (Line.written order (s :: rest)) =
          bytes (s.written order) ++ bytes (Line.written order rest) := by
        simp [Line.written, Text.Utf8.bytes_append, Text.Utf8.bytes_join]
      obtain ⟨pen, hfeed⟩ := ih (d := ⟨.text, s.style.pen, (bytes s.text).toArray⟩) rfl hrest
        (.inr fun t ht => by
          rw [style, hs.style.style_pen]
          exact hnext t ht)
      refine ⟨pen, ?_⟩
      rw [hcons, feed_append, hsegment, hfeed, heldChunks_segment hs]
      simp

def lineChunks (line : Line) : List Chunk :=
  line.map .segment ++ [.lineBreak]

theorem feed_lines (horder : ∀ settings, (order settings).Perm settings) (hd : d.mode = .text)
    (hheld : d.held = #[]) {lines : List Line} (h : ∀ line ∈ lines, line.IsWritable) :
    ∃ pen, d.feed (bytes (writtenLines order lines)) =
      (⟨.text, pen, #[]⟩, lines.flatMap lineChunks) := by
  induction lines generalizing d with
  | nil =>
      refine ⟨d.pen, ?_⟩
      have hbytes : bytes (writtenLines order []) = [] := rfl
      rw [hbytes, feed_nil, ← hd, ← hheld]
      rfl
  | cons line rest ih =>
      obtain ⟨pen, hline⟩ := feed_line horder hd (h line (by simp)) (.inl hheld)
      obtain ⟨last, hrest⟩ := ih (d := ⟨.text, pen, #[]⟩) rfl rfl fun l hl => h l (by simp [hl])
      have hcons : bytes (writtenLines order (line :: rest)) =
          bytes (line.written order) ++ bytes (writtenLines order rest) := by
        simp [writtenLines, Text.Utf8.bytes_join]
      refine ⟨last, ?_⟩
      rw [hcons, feed_append, hline, hrest, heldChunks_of_empty hheld]
      rfl

end Decoder

theorem Transcript.ofChunks_lineChunks (failure : Option String) (current line : Line)
    (cs : List Chunk) :
    ofChunks failure current (Decoder.lineChunks line ++ cs) =
      ⟨(current ++ line) :: (ofChunks failure [] cs).lines, failure⟩ := by
  induction line generalizing current with
  | nil => simp [Decoder.lineChunks, ofChunks]
  | cons s rest ih =>
      have hstep : ofChunks failure current (Decoder.lineChunks (s :: rest) ++ cs) =
          ofChunks failure (current ++ [s]) (Decoder.lineChunks rest ++ cs) := rfl
      rw [hstep, ih, List.append_assoc, List.singleton_append]

theorem Transcript.lines_flatMap_lineChunks (lines : List Line) :
    (ofChunks none [] (lines.flatMap Decoder.lineChunks)).lines = lines := by
  induction lines with
  | nil => rfl
  | cons line rest ih => rw [List.flatMap_cons, ofChunks_lineChunks, ih, List.nil_append]

/-- Lines whose neighbouring segments differ in style are read back as they were written. -/
theorem decodeLines_written (order : List Sgr.Setting → List Sgr.Setting)
    (horder : ∀ settings, (order settings).Perm settings) (lines : List Line)
    (h : ∀ line ∈ lines, line.IsWritable) : decodeLines (writtenLines order lines) = lines := by
  obtain ⟨pen, hfeed⟩ := Decoder.feed_lines (d := .initial) horder rfl rfl h
  have hrest : Decoder.heldChunks ⟨.text, pen, #[]⟩ = [] := rfl
  rw [decodeLines_eq_ofChunks, Decoder.chunks, hfeed, hrest, List.append_nil]
  exact Transcript.lines_flatMap_lineChunks lines

theorem decodeLines_written_of_reversed_settings :
    let loud : Style :=
      ⟨some (.ansi .brightBlack), some (.rgb 1 20 255), .ofList [.bold, .crossedOut], .empty⟩
    let lines : List Line :=
      [[.plain "│", ⟨"k é", loud⟩], [], [⟨"m", Style.plain.withFg (.indexed 200)⟩]]
    writtenLines List.reverse lines =
        "\x1B[0m│\x1B[0m\x1B[48;2;1;20;255;90;9;1mk é\n\n\x1B[0m\x1B[38;5;200mm\n" ∧
      decodeLines (writtenLines List.reverse lines) = lines := by
  intro loud lines
  refine ⟨by decide +kernel, decodeLines_written List.reverse List.reverse_perm lines ?_⟩
  have hunbroken (text : String)
      (h : (text.toList.all fun c => c != '\x1B' && (c != '\n' && c != '\r')) = true) :
      ∀ c ∈ text.toList, c ≠ '\x1B' ∧ c ≠ '\n' ∧ c ≠ '\r' := by
    simpa using h
  have hbar : Segment.IsWritable (.plain "│") :=
    ⟨by decide, hunbroken "│" rfl, ⟨rfl, by decide, by decide⟩⟩
  have hloud : Segment.IsWritable ⟨"k é", loud⟩ :=
    ⟨by decide, hunbroken "k é" (by decide), ⟨rfl, by decide, by decide⟩⟩
  have hindexed : Segment.IsWritable ⟨"m", Style.plain.withFg (.indexed 200)⟩ :=
    ⟨by decide, hunbroken "m" rfl, ⟨by decide, by decide, by decide⟩⟩
  intro line hline
  simp only [lines, List.mem_cons, List.not_mem_nil, or_false] at hline
  rcases hline with rfl | rfl | rfl
  · constructor
    · intro s hs
      simp only [List.mem_cons, List.not_mem_nil, or_false] at hs
      rcases hs with rfl | rfl
      · exact hbar
      · exact hloud
    · apply List.IsChain.cons_cons
      · decide
      · exact .singleton _
  · exact ⟨by simp, .nil⟩
  · constructor
    · intro s hs
      rw [List.mem_singleton.mp hs]
      exact hindexed
    · exact .singleton _

end RevisionGraph

import RevisionGraph.Proofs.Writing

/-!
# Renditions that are joined

A rendition reads its codes one at a time and keeps, from one to the next, what an open colour
choice still expects. So two renditions can be joined at a semicolon when nothing is left open at the
end of the first (`apply_append`). Otherwise the colour choice would take its codes from the second,
and there is always a second one for which this shows (`exists_codes_of_open`).
-/

namespace RevisionGraph

namespace Sgr

/-! ## Colour choices -/

def IsChoice (n : Nat) : Prop :=
  n = 38 ∨ n = 48

/-- Each colour choice is followed by the codes that it needs. A mode other than 5 and 2 is a code
of its own, which may be a colour choice again. -/
inductive Complete : List Nat → Prop
  | nil : Complete []
  | code {n : Nat} {codes : List Nat} : ¬ IsChoice n → Complete codes → Complete (n :: codes)
  | index {n value : Nat} {codes : List Nat} :
      IsChoice n → Complete codes → Complete (n :: 5 :: value :: codes)
  | channels {n r g b : Nat} {codes : List Nat} :
      IsChoice n → Complete codes → Complete (n :: 2 :: r :: g :: b :: codes)
  | mode {n mode : Nat} {codes : List Nat} :
      IsChoice n → mode ≠ 5 → mode ≠ 2 → Complete (mode :: codes) → Complete (n :: mode :: codes)

variable {n : Nat} {codes : List Nat}

theorem IsChoice.run_cons (hn : IsChoice n) (pen : Pen) :
    ∃ layer, ∀ codes, State.run ⟨pen, .code⟩ (n :: codes) = State.run ⟨pen, .mode layer⟩ codes := by
  rcases hn with rfl | rfl
  · exact ⟨.foreground, fun _ => rfl⟩
  · exact ⟨.background, fun _ => rfl⟩

theorem run_cons_of_not_choice (hn : ¬ IsChoice n) (pen : Pen) (codes : List Nat) :
    State.run ⟨pen, .code⟩ (n :: codes) = State.run ⟨(applyCode pen n).pen, .code⟩ codes := by
  have happly : applyCode pen n = ⟨(applyCode pen n).pen, .code⟩ := by
    rw [IsChoice, not_or] at hn
    unfold applyCode
    split <;> first | rfl | contradiction | (split_ifs <;> rfl)
  exact congrArg (State.run · codes) happly

theorem IsChoice.run_mode (hn : IsChoice n) {mode : Nat} (h5 : mode ≠ 5) (h2 : mode ≠ 2) (pen : Pen)
    (codes : List Nat) :
    State.run ⟨pen, .code⟩ (n :: mode :: codes) = State.run ⟨pen, .code⟩ (mode :: codes) := by
  obtain ⟨layer, hrun⟩ := hn.run_cons pen
  have hmode : State.step ⟨pen, .mode layer⟩ mode = State.step ⟨pen, .code⟩ mode := by
    simp only [State.step, if_neg h5, if_neg h2]
  rw [hrun]
  exact congrArg (State.run · codes) hmode

theorem Complete.expecting_run (h : Complete codes) (pen : Pen) :
    (State.run ⟨pen, .code⟩ codes).expecting = .code := by
  induction h generalizing pen with
  | nil => rfl
  | code hn _ ih =>
      rw [run_cons_of_not_choice hn]
      exact ih _
  | index hn _ ih =>
      obtain ⟨layer, hrun⟩ := hn.run_cons pen
      rw [hrun]
      exact ih _
  | channels hn _ ih =>
      obtain ⟨layer, hrun⟩ := hn.run_cons pen
      rw [hrun]
      exact ih _
  | mode hn h5 h2 _ ih =>
      rw [hn.run_mode h5 h2]
      exact ih pen

theorem complete_of_expecting_run {pen : Pen}
    (h : (State.run ⟨pen, .code⟩ codes).expecting = .code) : Complete codes := by
  -- A choice takes up to five codes at once, so the induction is on the length.
  induction hlength : codes.length using Nat.strongRecOn generalizing codes pen with
  | _ k ih =>
      subst hlength
      rcases codes with _ | ⟨n, rest⟩
      · exact .nil
      by_cases hn : IsChoice n
      · rcases rest with _ | ⟨mode, rest⟩
        · obtain ⟨layer, hrun⟩ := hn.run_cons pen
          rw [hrun] at h
          contradiction
        by_cases h5 : mode = 5
        · obtain ⟨layer, hrun⟩ := hn.run_cons pen
          subst h5
          rw [hrun] at h
          match rest, h with
          | value :: rest, h => exact .index hn (ih rest.length (by simp +arith) h rfl)
        by_cases h2 : mode = 2
        · obtain ⟨layer, hrun⟩ := hn.run_cons pen
          subst h2
          rw [hrun] at h
          match rest, h with
          | r :: g :: b :: rest, h => exact .channels hn (ih rest.length (by simp +arith) h rfl)
        · rw [hn.run_mode h5 h2] at h
          exact .mode hn h5 h2 (ih _ (by simp) h rfl)
      · rw [run_cons_of_not_choice hn] at h
        exact .code hn (ih rest.length (by simp) h rfl)

/-! ## Renditions one after another -/

theorem parameters_append (p q : List UInt8) :
    parameters (p ++ 0x3B :: q) = parameters p ++ parameters q := by
  rw [parameters, List.splitOnP_append_cons _ _ rfl, List.map_append]
  rfl

theorem apply_append {p : List UInt8} (hp : Complete (parameters p)) (q : List UInt8) (pen : Pen) :
    apply pen (p ++ 0x3B :: q) = apply (apply pen p) q := by
  have hclosed : State.run ⟨pen, .code⟩ (parameters p) = ⟨apply pen p, .code⟩ := by
    have hexpecting := hp.expecting_run pen
    rw [apply]
    generalize State.run ⟨pen, .code⟩ (parameters p) = s at hexpecting
    rw [← hexpecting]
  rw [apply, parameters_append, State.run_append, hclosed]
  rfl

/-! ## Open colour choices -/

def layerColor (layer : Layer) (pen : Pen) : Option Color :=
  match layer with
  | .foreground => pen.fg
  | .background => pen.bg

@[simp] theorem layerColor_setLayer (layer : Layer) (pen : Pen) (color : Option Color) :
    layerColor layer (setLayer pen color layer) = color := by
  cases layer <;> rfl

@[simp] theorem layerColor_turnOff (layer : Layer) (pen : Pen) (ms : List Modifier) :
    layerColor layer (turnOff pen ms) = layerColor layer pen := by
  cases layer <;> rfl

@[simp] theorem layerColor_turnOn (layer : Layer) (pen : Pen) (m : Modifier) :
    layerColor layer (turnOn pen m) = layerColor layer pen := by
  cases layer <;> rfl

/-- Codes that bring an open colour choice to its end with `n` as the last one. -/
def Expecting.closing (n : Nat) : Expecting → List Nat
  | .code => []
  | .mode _ => [5, n]
  | .index _ | .blue .. => [n]
  | .red _ => [22, 22, n]
  | .green .. => [22, n]

theorem exists_color_of_open {expecting : Expecting} (h : expecting ≠ .code) (pen : Pen) :
    ∃ (layer : Layer) (color : UInt8 → Color), (∀ a b, color a = color b → a = b) ∧
      ∀ n, layerColor layer (State.run ⟨pen, expecting⟩ (expecting.closing n)).pen =
        some (color (byte n)) := by
  cases expecting with
  | code => exact absurd rfl h
  | mode layer | index layer =>
      exact ⟨layer, .indexed, fun _ _ => Color.indexed.inj, fun n => layerColor_setLayer ..⟩
  | red layer =>
      refine ⟨layer, .rgb (byte 22) (byte 22), ?_, fun n => layerColor_setLayer ..⟩
      exact fun _ _ hcolor => (Color.rgb.inj hcolor).2.2
  | green layer r =>
      refine ⟨layer, .rgb r (byte 22), ?_, fun n => layerColor_setLayer ..⟩
      exact fun _ _ hcolor => (Color.rgb.inj hcolor).2.2
  | blue layer r g =>
      refine ⟨layer, .rgb r g, ?_, fun n => layerColor_setLayer ..⟩
      exact fun _ _ hcolor => (Color.rgb.inj hcolor).2.2

theorem layerColor_run_closing (layer : Layer) (pen : Pen) (expecting : Expecting) {n : Nat}
    (hn : n = 22 ∨ n = 23) :
    layerColor layer (State.run ⟨pen, .code⟩ (expecting.closing n)).pen = layerColor layer pen := by
  rcases hn with rfl | rfl <;> cases expecting <;>
    simp [Expecting.closing, State.run, State.step, applyCode]

theorem exists_codes_of_open {s : State} (h : s.expecting ≠ .code) :
    ∃ codes, codes ≠ [] ∧ (∀ n ∈ codes, n ≤ 255) ∧
      (s.run codes).pen ≠ (State.run ⟨s.pen, .code⟩ codes).pen := by
  obtain ⟨pen, expecting⟩ := s
  obtain ⟨layer, color, hinj, hcolor⟩ := exists_color_of_open h pen
  by_contra hall
  have hbefore (n : Nat) (hn : n = 22 ∨ n = 23) : some (color (byte n)) = layerColor layer pen := by
    rw [← hcolor, ← layerColor_run_closing layer pen expecting hn]
    by_contra hother
    refine hall ⟨expecting.closing n, ?_, ?_, fun hpen => hother (congrArg (layerColor layer) hpen)⟩
    · cases expecting <;> first | contradiction | simp [Expecting.closing]
    · rcases hn with rfl | rfl <;> cases expecting <;> simp [Expecting.closing]
  have hsame := (hbefore 22 (.inl rfl)).trans (hbefore 23 (.inr rfl)).symm
  exact absurd (hinj _ _ (Option.some.inj hsame)) (by decide)

end Sgr

/-! ## Reading both -/

namespace Decoder

def rendition (parameters : List UInt8) : List UInt8 :=
  0x1B :: 0x5B :: (parameters ++ [0x6D])

variable {d : Decoder} {p q : List UInt8}

theorem isFinal_eq_false_iff {b : UInt8} : isFinal b = false ↔ ¬ (0x40 ≤ b ∧ b ≤ 0x7E) := by
  rw [Bool.eq_false_iff, ne_eq, isFinal_iff]

theorem pen_feed_rendition (hd : d.mode = .text) (hp : ∀ b ∈ p, isFinal b = false) :
    (d.feed (rendition p)).1.pen = Sgr.apply d.pen p := by
  rw [rendition, feed_parameters hd hp, pen_setPen]

theorem pen_feed_renditions (hd : d.mode = .text) (hp : ∀ b ∈ p, isFinal b = false)
    (hq : ∀ b ∈ q, isFinal b = false) :
    (d.feed (rendition p ++ rendition q)).1.pen = Sgr.apply (Sgr.apply d.pen p) q := by
  have hmode : (d.feed (rendition p)).1.mode = .text := by
    rw [rendition, feed_parameters hd hp, mode_setPen]
  rw [feed_append, pen_feed_rendition hmode hq, pen_feed_rendition hd hp]

theorem isFinal_of_mem_append (hp : ∀ b ∈ p, isFinal b = false) (hq : ∀ b ∈ q, isFinal b = false) :
    ∀ b ∈ p ++ 0x3B :: q, isFinal b = false := by
  intro b hb
  rcases List.mem_append.mp hb with hb | hb
  · exact hp b hb
  · rcases List.mem_cons.mp hb with rfl | hb
    · rfl
    · exact hq b hb

/-- A rendition can be joined with every other one at a semicolon if and only if its colour choices
have their codes in it. A rendition without parameters is a reset. -/
theorem style_joined_eq_iff (hp : ∀ b ∈ p, ¬ (0x40 ≤ b ∧ b ≤ 0x7E)) :
    (Sgr.Complete (Sgr.parameters p) ↔
      ∀ q : List UInt8, (∀ b ∈ q, ¬ (0x40 ≤ b ∧ b ≤ 0x7E)) → ∀ d : Decoder, d.mode = .text →
        (d.feed (rendition (p ++ 0x3B :: q))).1.style =
          (d.feed (rendition p ++ rendition q)).1.style) ∧
      ∀ d : Decoder, d.mode = .text → (d.feed (rendition [])).1.style = .plain := by
  simp only [← isFinal_eq_false_iff] at hp ⊢
  refine ⟨⟨?_, ?_⟩, ?_⟩
  · intro hcomplete q hq d hd
    rw [style, style, pen_feed_rendition hd (isFinal_of_mem_append hp hq),
      Sgr.apply_append hcomplete, pen_feed_renditions hd hp hq]
  · intro hjoined
    by_contra hopen
    have hexpecting : (Sgr.State.run ⟨initial.pen, .code⟩ (Sgr.parameters p)).expecting ≠ .code :=
      fun hclosed => hopen (Sgr.complete_of_expecting_run hclosed)
    obtain ⟨codes, hne, hle, hother⟩ := Sgr.exists_codes_of_open hexpecting
    have hcodes : Sgr.parameters (Sgr.joined codes) = codes :=
      Sgr.parameters_joined hne fun n hn => (hle n hn).trans (by decide)
    have hq : ∀ b ∈ Sgr.joined codes, isFinal b = false := fun b => isFinal_of_mem_joined
    have hstyle := hjoined _ hq initial rfl
    rw [style, style, Pen.style_inj, pen_feed_rendition rfl (isFinal_of_mem_append hp hq),
      pen_feed_renditions rfl hp hq] at hstyle
    apply hother
    rw [← Sgr.State.run_append]
    simpa only [Sgr.apply, Sgr.parameters_append, hcodes] using hstyle
  · intro d hd
    rw [style, pen_feed_rendition hd (by simp)]
    rfl

theorem style_joined_eq_iff_of_nested_choice :
    let p := Text.Utf8.bytes "38;48;7"
    let q := Text.Utf8.bytes "2;99999999999;1"
    (∀ b ∈ p, ¬ (0x40 ≤ b ∧ b ≤ 0x7E)) ∧ Sgr.Complete (Sgr.parameters p) ∧
      (∀ b ∈ q, ¬ (0x40 ≤ b ∧ b ≤ 0x7E)) ∧
      (initial.feed (rendition (p ++ 0x3B :: q))).1.style =
        (initial.feed (rendition p ++ rendition q)).1.style ∧
      (initial.feed (rendition (p ++ 0x3B :: q))).1.style =
        ((Style.plain.withModifier .reversed).withModifier .dim).withModifier .bold := by
  intro p q
  have hp : ∀ b ∈ p, ¬ (0x40 ≤ b ∧ b ≤ 0x7E) := by
    simp only [← isFinal_iff]
    exact List.any_eq_false.mp (by decide)
  have hq : ∀ b ∈ q, ¬ (0x40 ≤ b ∧ b ≤ 0x7E) := by
    simp only [← isFinal_iff]
    exact List.any_eq_false.mp (by decide)
  have hcomplete : Sgr.Complete (Sgr.parameters p) := by
    have hcodes : Sgr.parameters p = [38, 48, 7] := by decide
    rw [hcodes]
    exact .mode (.inl rfl) (by decide) (by decide)
      (.mode (.inr rfl) (by decide) (by decide) (.code (by unfold Sgr.IsChoice; decide) .nil))
  have hjoined := (style_joined_eq_iff hp).1.mp hcomplete q hq initial rfl
  exact ⟨hp, hcomplete, hq, hjoined, by decide +kernel⟩

end Decoder
end RevisionGraph

import Mathlib.Data.List.DropRight
import RevisionGraph.Proofs.Following

/-!
# Revisions as arguments

Whatever a log holds, the revision by which a row is named starts with a letter or a digit and is one
word, so that no command can take it for an option. A command names the revision of a row that was
under the cursor, and the log of that row may be gone.
-/

namespace RevisionGraph

/-- A word that can stand for a revision on a command line. -/
structure IsRevision (text : String) : Prop where
  head : ∃ c, text.toList.head? = some c ∧ Text.isAlphanumeric c = true
  unbroken : ∀ c ∈ text.toList, Text.isBlank c = false
  last : text.toList.getLast? ≠ some '?'

/-! ## Identifiers -/

namespace Text

theorem isAlphanumeric_question : isAlphanumeric '?' = false := by
  decide +kernel

def blankCodes : List Nat :=
  [9, 10, 11, 12, 13, 0x20, 0x85, 0xA0, 0x1680, 0x2000, 0x2001, 0x2002, 0x2003, 0x2004, 0x2005,
    0x2006, 0x2007, 0x2008, 0x2009, 0x200A, 0x2028, 0x2029, 0x202F, 0x205F, 0x3000]

theorem mem_blankCodes {c : Char} (h : isBlank c = true) : c.toNat ∈ blankCodes := by
  simp only [isBlank, Bool.or_eq_true, Bool.and_eq_true, decide_eq_true_eq, beq_iff_eq] at h
  simp only [blankCodes, List.mem_cons, List.not_mem_nil, or_false]
  omega

theorem isBlank_of_isAlphanumeric {c : Char} (h : isAlphanumeric c = true) : isBlank c = false := by
  have hblank : ∀ n ∈ blankCodes, inRanges n alphanumericRanges = false := by
    decide +kernel
  by_contra hnot
  have hrange := hblank c.toNat (mem_blankCodes (by simpa using hnot))
  rw [isAlphanumeric, hrange] at h
  contradiction

end Text

theorem head_of_isIdentifier {text : String} (h : isIdentifier text = true) :
    ∃ c rest, text.toList = c :: rest ∧ Text.isAlphanumeric c = true := by
  simp only [isIdentifier, Bool.and_eq_true, Bool.not_eq_true', List.all_eq_true] at h
  obtain ⟨hsome, hall⟩ := h
  cases htext : text.toList with
  | nil =>
      have hnone : text = "" := String.toList_inj.mp htext
      rw [hnone] at hsome
      contradiction
  | cons c rest => exact ⟨c, rest, rfl, hall c (htext ▸ List.mem_cons_self)⟩

theorem ne_question_of_isAlphanumeric {c : Char} (h : Text.isAlphanumeric c = true) : c ≠ '?' := by
  rintro rfl
  rw [Text.isAlphanumeric_question] at h
  contradiction

theorem isRevision_of_isIdentifier {text : String} (h : isIdentifier text = true) :
    IsRevision text := by
  obtain ⟨c, rest, htext, hc⟩ := head_of_isIdentifier h
  simp only [isIdentifier, Bool.and_eq_true, List.all_eq_true] at h
  constructor
  · exact ⟨c, by rw [htext]; rfl, hc⟩
  · intro d hd
    exact Text.isBlank_of_isAlphanumeric (h.2 d hd)
  · intro hlast
    exact ne_question_of_isAlphanumeric (h.2 '?' (List.mem_of_getLast? hlast)) rfl

/-! ## Revisions of rows -/

theorem toList_withoutQuestionMarks (id : String) :
    (withoutQuestionMarks id).toList = id.toList.rdropWhile (· == '?') := by
  rw [withoutQuestionMarks, String.toList_ofList]
  rfl

theorem isRevision_withoutQuestionMarks {id : String} {c : Char} {rest : List Char}
    (hid : id.toList = c :: rest) (hc : Text.isAlphanumeric c = true)
    (hword : ∀ d ∈ id.toList, Text.isBlank d = false) : IsRevision (withoutQuestionMarks id) := by
  have hprefix := List.rdropWhile_prefix (· == '?') id.toList
  have hne : id.toList.rdropWhile (· == '?') ≠ [] := by
    intro hnil
    have hall := List.rdropWhile_eq_nil_iff.mp hnil c (by simp [hid])
    exact ne_question_of_isAlphanumeric hc (by simpa using hall)
  have hlast := List.rdropWhile_last_not (· == '?') id.toList hne
  rw [← toList_withoutQuestionMarks] at hprefix
  constructor
  · refine ⟨c, ?_, hc⟩
    obtain ⟨dropped, hdropped⟩ := hprefix
    rw [hid] at hdropped
    cases hkept : (withoutQuestionMarks id).toList with
    | nil =>
        rw [toList_withoutQuestionMarks] at hkept
        contradiction
    | cons d kept =>
        rw [hkept] at hdropped
        exact congrArg some (List.cons_eq_cons.mp hdropped).1
  · intro d hd
    exact hword d (List.IsPrefix.subset hprefix hd)
  · rw [toList_withoutQuestionMarks, List.getLast?_eq_some_getLast hne]
    simpa using hlast

namespace RevisionLine

variable {r : RevisionLine} {line : Line}

theorem isBlank_of_mem_suffix {d : Char} (h : d ∈ r.suffix.text.toList) : Text.isBlank d = false := by
  simp only [Line.text, String.toList_join, List.mem_flatMap, List.mem_map] at h
  obtain ⟨text, ⟨s, hs, rfl⟩, hd⟩ := h
  have hjoins : joins s = true := List.mem_takeWhile_imp hs
  simp only [joins, Bool.and_eq_true, Bool.not_eq_true', List.any_eq_false] at hjoins
  simpa using hjoins.2 d hd

theorem changeId_cases (r : RevisionLine) :
    r.changeId = r.change.text ++ r.suffix.text ∧ isAmbiguous r.changeId = true ∨
      r.changeId = r.change.text := by
  simp only [changeId]
  split
  · next hambiguous => exact .inl ⟨rfl, hambiguous⟩
  · exact .inr rfl

theorem isAmbiguous_of_isRevision {text : String} (h : IsRevision text) : isAmbiguous text = false := by
  by_contra hnot
  obtain ⟨front, hfront⟩ := List.isSuffixOf_iff_suffix.mp (eq_true_of_ne_false hnot)
  apply h.last
  rw [← hfront, List.getLast?_append]
  rfl

theorem isRevision_commit (h : ofLine? line = some r) : IsRevision r.commit.revision := by
  have hidentifier := isIdentifier_of_ofLine? h
  have hchange := isRevision_of_isIdentifier hidentifier
  have hrevision : r.commit.revision =
      if isAmbiguous r.changeId then r.commit.commitId.getD (withoutQuestionMarks r.changeId)
      else r.changeId := rfl
  rcases r.changeId_cases with ⟨hword, hambiguous⟩ | hid
  · rw [hrevision, if_pos hambiguous]
    cases hid : r.commit.commitId with
    | some id =>
        obtain ⟨s, hs, rfl⟩ := Option.map_eq_some_iff.mp hid
        have hfound := List.find?_some hs
        simp only [decide_eq_true_eq] at hfound
        exact isRevision_of_isIdentifier hfound.2.2
    | none =>
        obtain ⟨c, rest, htext, hc⟩ := head_of_isIdentifier hidentifier
        have hstart : r.changeId.toList = c :: (rest ++ r.suffix.text.toList) := by
          rw [hword, String.toList_append, htext, List.cons_append]
        apply isRevision_withoutQuestionMarks hstart hc
        intro d hd
        rw [hword, String.toList_append] at hd
        rcases List.mem_append.mp hd with hd | hd
        · exact hchange.unbroken d hd
        · exact isBlank_of_mem_suffix hd
  · rw [hrevision, hid, isAmbiguous_of_isRevision hchange, if_neg Bool.false_ne_true]
    exact hchange

end RevisionLine

theorem isRevision_of_mem_rowsOf {lines : List Line} {row : Row} (h : row ∈ rowsOf lines) :
    IsRevision row.commit.revision := by
  obtain ⟨line, r, hr, hcommit⟩ := exists_revisionLine_of_mem_rowsOf h
  rw [hcommit]
  exact RevisionLine.isRevision_commit hr

/-! ## Targets of operations -/

variable {runner : Runner} {config : Config} {theme : Theme} {phase : Phase} {app : App}

theorem Session.isRevision_of_selected (h : Session runner config theme phase app) {c : Commit}
    (hselected : app.revisions.selected = some c) : IsRevision c.revision := by
  have hrows := h.reaches.forall_rows (P := fun row => IsRevision row.commit.revision)
    fun source row => isRevision_of_mem_rowsOf
  obtain ⟨row, hrow, rfl⟩ := Option.map_eq_some_iff.mp hselected
  exact hrows row (List.mem_of_getElem? hrow)

def App.TargetIsRevision (app : App) : Prop :=
  ∀ o c, app.operation = some o → o.target = some c → IsRevision c.revision

theorem App.TargetIsRevision.step {p q : Phase × App} {happening : Happening} (h : p.2.TargetIsRevision)
    (hstep : Step runner p happening q) (hsession : Session runner config theme q.1 q.2) :
    q.2.TargetIsRevision := by
  intro o c ho hc
  rcases hstep.carries with hcarries | ⟨key, asked, -, hanswered⟩
  · cases hcarries with
    | rests operation selected => exact h o c (operation ▸ ho) hc
    | @told told origin operation =>
        obtain rfl := Option.some.inj (operation.symm.trans ho)
        rw [Operation.target_setSelected] at hc
        split at hc
        · next hediting =>
            rcases origin with hold | hnew
            · exact h told c hold hc
            · rw [hediting] at hnew
              contradiction
        · exact hsession.isRevision_of_selected hc
    | ended operation =>
        rw [operation] at ho
        contradiction
  · obtain rfl := Option.some.inj (hanswered.operation.symm.trans ho)
    rw [Operation.target_handleKey] at hc
    exact h asked c hanswered.asked hc

theorem Session.targetIsRevision (h : Session runner config theme phase app) :
    app.TargetIsRevision := by
  have hstart : (App.start runner (.initial config theme)).TargetIsRevision := by
    intro o c ho
    rw [App.start, App.operation_reloadRevisions] at ho
    contradiction
  exact h.of_steps (P := fun p => p.2.TargetIsRevision) hstart fun hsession ih hstep =>
    ih.step hstep (hsession.step hstep)

/-! ## Commands -/

def Command.revision? : Command → Option String
  | .listMovable revision => some revision
  | .moveBookmark _ revision => some revision
  | .createBookmark _ revision => some revision
  | _ => none

theorem Bookmark.Asks.revision?_eq_none {b : Bookmark} {remote : String} {code : KeyCode}
    {command : Command} (h : b.Asks remote code command) : command.revision? = none := by
  cases h <;> rfl

theorem isRevision_of_keyDeeds (h : Session runner config theme phase app) {key : Key}
    {command : Command} (hdeeds : app.KeyDeeds key [command]) {revision : String}
    (hrevision : command.revision? = some revision) : IsRevision revision := by
  cases hdeeds with
  | lookUp operation enter looksUp =>
      cases looksUp with
      | create stage target =>
          obtain rfl := Option.some.inj hrevision
          exact h.targetIsRevision _ _ operation target
  | change asks =>
      cases asks with
      | operation operation enter asks =>
          cases asks with
          | move target =>
              obtain rfl := Option.some.inj hrevision
              exact h.targetIsRevision _ _ operation target
          | create stage target named =>
              obtain rfl := Option.some.inj hrevision
              exact h.targetIsRevision _ _ operation target
      | panel _ _ _ _ asks =>
          rw [asks.revision?_eq_none] at hrevision
          contradiction

/-- Every row of every log is named by a revision of this kind, and so is every revision that a
command about bookmarks names in a session. -/
theorem revisions_are_plain_words :
    (∀ (source : Source) (rows : List Row), parseLog source = .ok rows →
      ∀ row ∈ rows, IsRevision row.commit.revision) ∧
    ∀ (runner : Runner) (config : Config) (theme : Theme) (phase : Phase) (app : App),
      Session runner config theme phase app → ∀ call ∈ app.calls, ∀ revision,
        call.command.revision? = some revision → IsRevision revision := by
  constructor
  · intro source rows hrows row hrow
    rw [rows_of_parseLog hrows] at hrow
    exact isRevision_of_mem_rowsOf hrow
  · intro runner config theme phase app h call hcall revision hrevision
    obtain ⟨before, after, hcalls⟩ := List.append_of_mem hcall
    have hdeed : call.command.isLoad = false := by
      cases hcommand : call.command <;> first | rfl | (rw [hcommand] at hrevision; contradiction)
    obtain ⟨pressed, key, hpressed, hdeeds, -⟩ := origin_of_deed h hcalls hdeed
    exact isRevision_of_keyDeeds hpressed hdeeds hrevision

/-! A log whose only change id is ambiguous, with no commit id beside it and a byte that is not
UTF-8. -/

def ambiguousLog : Source :=
  [.bytes (Text.Utf8.bytes "* \x1B[1mkx\x1B[31m-???\x1B[m "), .bytes [0xFF, 0x0A]]

def ambiguousLine : Line :=
  [.plain "* ", ⟨"kx", Style.plain.withModifier .bold⟩,
    ⟨"-???", (Style.plain.withModifier .bold).withFg (.ansi .red)⟩, .plain " \uFFFD"]

def ambiguousRunner : Runner :=
  Script.runner ⟨[.ok ambiguousLog], []⟩

theorem transcript_ambiguousLog : ambiguousLog.transcript = ⟨[ambiguousLine], none⟩ := by
  rw [Source.transcript_eq_ofChunks, Source.chunks_eq]
  decide +kernel

theorem revisions_are_plain_words_of_ambiguous_id :
    (∃ row ∈ rowsOf [ambiguousLine], row.commit.revision = "kx-" ∧ IsRevision row.commit.revision) ∧
      ∃ app, Session ambiguousRunner .initial ⟨none⟩ .begun app ∧
        .run (.listMovable "kx-") ∈ app.calls ∧ IsRevision "kx-" := by
  have hrows : parseLog ambiguousLog = .ok (rowsOf [ambiguousLine]) := by
    rw [parseLog, transcript_ambiguousLog]
  have hstream : ambiguousRunner.stream [] Config.initial.logCommand = .ok ambiguousLog := rfl
  have started := Session.started hstream ⟨none⟩
  rw [transcript_ambiguousLog] at started
  have loaded := started.produce.produce.produce.produce.tick_turn
    (by decide +kernel) (by decide +kernel)
  have shown := Session.key (.draw loaded 80 24) (.plain (.char 'b'))
  have creating := shown.keyRound (by decide +kernel) (.char 'c')
  have entering := creating.keyRound (by decide +kernel) .enter
  generalize happ : App.keyRound _ _ .enter = app at entering
  have hcall : .run (.listMovable "kx-") ∈ app.calls := by
    rw [← happ]
    decide +kernel
  have hlength : 0 < (rowsOf [ambiguousLine]).length := by decide +kernel
  have hrow := List.getElem_mem hlength
  have hnamed : ∀ row ∈ rowsOf [ambiguousLine], row.commit.revision = "kx-" := by decide +kernel
  constructor
  · exact ⟨_, hrow, hnamed _ hrow, revisions_are_plain_words.1 _ _ hrows _ hrow⟩
  · refine ⟨app, entering, hcall, ?_⟩
    exact revisions_are_plain_words.2 _ _ _ _ _ entering _ hcall "kx-" rfl

end RevisionGraph

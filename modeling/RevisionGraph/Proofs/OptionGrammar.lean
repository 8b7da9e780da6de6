import Mathlib.Data.List.DropRight
import RevisionGraph.Cli.Options

/-!
# The grammar of the command line

The arguments are groups, an option and what it is given. What a group begins with is never the source
of a dump, so a dump whose source is left out can be told from one that has it, and the arguments are
read group by group (`State.read?_words`). Groups then only have to set what is not set yet
(`Options.Holds.add`), in any order.
-/

namespace RevisionGraph

namespace Options

/-! ## Groups -/

def Flag.word : Flag → String
  | .repository => "--repo"
  | .revset => "--revset"
  | .limit => "--limit"
  | .batchSize => "--batch-size"
  | .logFile => "--log-file"

inductive Group where
  | valued (flag : Flag) (value : String)
  | dump (source : Option String)
  | help (short : Bool)
  deriving DecidableEq, Repr

/-- The values that an option takes: a positive size where it is a number, and else what does not begin
with two hyphens. -/
def Flag.Takes (flag : Flag) (value : String) : Prop :=
  match flag with
  | .limit => ∃ n, 0 < n ∧ Text.size? value = some n
  | .batchSize => ∃ n, 0 < n ∧ Text.size? (Text.trim value) = some n
  | .repository | .revset | .logFile => ¬ ['-', '-'] <+: value.toList

namespace Group

def argument : Group → Argument
  | .valued flag _ => .valued flag
  | .dump _ => .dump
  | .help _ => .help

def words : Group → List String
  | .valued flag value => [flag.word, value]
  | .dump source => "--dump" :: source.toList
  | .help short => [if short then "-h" else "--help"]

theorem words_ne_nil (g : Group) : g.words ≠ [] := by
  cases g <;> simp [words]

/-- The source of a dump is one hyphen, or does not begin with one. -/
def Fits : Group → Prop
  | .valued flag value => flag.Takes value
  | .dump source => ∀ s ∈ source, s = "-" ∨ ¬ ['-'] <+: s.toList
  | .help _ => True

def addTo? (o : Options) : Group → Option Options
  | .valued flag value => o.set? flag value
  | .dump source => o.setDump? (source.getD standardInput)
  | .help _ => some { o with help := true }

end Group

/-- Groups of the right form, each option at most once but the help flag. -/
structure WellFormed (gs : List Group) : Prop where
  fits : ∀ g ∈ gs, g.Fits
  once : gs.Pairwise fun g h => g.argument = h.argument → h.argument = .help

/-- The options are what the groups give, and nothing else. -/
structure Holds (o : Options) (gs : List Group) : Prop where
  repository : ∀ v, o.repository = some v ↔ .valued .repository v ∈ gs
  revset : ∀ v, o.revset = some v ↔ .valued .revset v ∈ gs
  limit : ∀ n, o.limit = some n ↔ ∃ v, .valued .limit v ∈ gs ∧ Text.size? v = some n
  batchSize : ∀ n, o.batchSize = some n ↔
    ∃ v, .valued .batchSize v ∈ gs ∧ Text.size? (Text.trim v) = some n
  logFile : ∀ v, o.logFile = some v ↔ .valued .logFile v ∈ gs
  dump : ∀ s, o.dump = some s ↔ .dump (some s) ∈ gs ∨ s = "-" ∧ .dump none ∈ gs
  help : o.help = true ↔ ∃ short, .help short ∈ gs

/-! ## Reading groups -/

def State.read? (s : State) (args : List String) : Option Options := do
  let t ← args.foldlM State.step? s
  t.finish?

theorem State.read?_cons (s : State) (arg : String) (args : List String) :
    s.read? (arg :: args) = (s.step? arg).bind (·.read? args) := by
  rw [State.read?, List.foldlM_cons]
  exact Option.bind_assoc _ _ _

theorem argument?_word (flag : Flag) : argument? flag.word = some (.valued flag) := by
  cases flag <;> rfl

theorem argument?_cases (s : String) :
    (∃ flag : Flag, s = flag.word) ∨ s = "--dump" ∨ (∃ short, [s] = (Group.help short).words) ∨
      argument? s = none := by
  unfold argument?
  split
  · exact .inl ⟨.repository, rfl⟩
  · exact .inl ⟨.revset, rfl⟩
  · exact .inl ⟨.limit, rfl⟩
  · exact .inl ⟨.batchSize, rfl⟩
  · exact .inl ⟨.logFile, rfl⟩
  · exact .inr (.inl rfl)
  · exact .inr (.inr (.inl ⟨true, rfl⟩))
  · exact .inr (.inr (.inl ⟨false, rfl⟩))
  · exact .inr (.inr (.inr rfl))

theorem isValue_iff {s : String} : isValue s = true ↔ ¬ ['-', '-'] <+: s.toList := by
  rw [isValue, Bool.not_eq_true', ← Bool.not_eq_true, List.isPrefixOf_iff_prefix]

theorem isDumpSource_iff {s : String} : isDumpSource s = true ↔ s = "-" ∨ ¬ ['-'] <+: s.toList := by
  rw [isDumpSource, Bool.or_eq_true, beq_iff_eq, bne_iff_ne, standardInput]
  cases s.toList with
  | nil => simp
  | cons c rest => simp [eq_comm]

theorem isDumpSource_of_head {gs : List Group} {arg : String}
    (h : (gs.flatMap Group.words).head? = some arg) : isDumpSource arg = false := by
  cases gs with
  | nil => contradiction
  | cons g gs =>
      cases g with
      | valued flag value =>
          obtain rfl := Option.some.inj h
          cases flag <;> decide
      | dump source =>
          obtain rfl := Option.some.inj h
          decide
      | help short =>
          obtain rfl := Option.some.inj h
          cases short <;> decide

/-! ## Values -/

theorem size?_of_hyphen {s : String} {rest : List Char} (h : s.toList = '-' :: rest) :
    Text.size? s = none := by
  have hnone (cs : List Char) : cs.foldl (fun value c => do
      let v ← value
      let d ← Text.digitValue? 10 c
      pure (v * 10 + d)) none = none := by
    induction cs with
    | nil => rfl
    | cons c cs ih => exact ih
  have hdigits : Text.digitsValue? 10 ('-' :: rest) = none := hnone rest
  rw [Text.size?, h, Text.numeral?]
  simp [Text.dropPlus, hdigits]

theorem toList_trim_of_cons {s : String} {c : Char} {rest : List Char} (h : s.toList = c :: rest)
    (hc : Text.isBlank c = false) : ∃ kept, (Text.trim s).toList = c :: kept := by
  have hstart : (c :: rest).dropWhile Text.isBlank = c :: rest := by simp [hc]
  have htrim : (Text.trim s).toList = (c :: rest).rdropWhile Text.isBlank := by
    rw [Text.trim, String.toList_ofList, h, Text.trimWhere, hstart]
    rfl
  have hkeeps := List.rdropWhile_prefix Text.isBlank (c :: rest)
  rw [htrim]
  cases hkept : (c :: rest).rdropWhile Text.isBlank with
  | nil =>
      have hblank := List.rdropWhile_eq_nil_iff.mp hkept c List.mem_cons_self
      exact absurd hblank (Bool.eq_false_iff.mp hc)
  | cons d kept =>
      rw [hkept] at hkeeps
      obtain ⟨rfl, -⟩ := List.cons_prefix_cons.mp hkeeps
      exact ⟨kept, rfl⟩

theorem Flag.Takes.isValue {flag : Flag} {value : String} (h : flag.Takes value) :
    isValue value = true := by
  rw [isValue_iff]
  rintro ⟨rest, hrest⟩
  cases flag with
  | repository => exact h ⟨rest, hrest⟩
  | revset => exact h ⟨rest, hrest⟩
  | logFile => exact h ⟨rest, hrest⟩
  | limit =>
      obtain ⟨n, -, hn⟩ := h
      rw [size?_of_hyphen hrest.symm] at hn
      contradiction
  | batchSize =>
      obtain ⟨n, -, hn⟩ := h
      obtain ⟨kept, hkept⟩ := toList_trim_of_cons hrest.symm (by decide)
      rw [size?_of_hyphen hkept] at hn
      contradiction

theorem Flag.takes_of_set? {o o' : Options} {flag : Flag} {value : String}
    (hvalue : isValue value = true) (h : o.set? flag value = some o') : flag.Takes value := by
  rw [isValue_iff] at hvalue
  cases flag with
  | repository => exact hvalue
  | revset => exact hvalue
  | logFile => exact hvalue
  | limit =>
      simp only [set?, Option.ite_none_left_eq_some, Option.map_eq_some_iff,
        Option.filter_eq_some_iff, decide_eq_true_eq] at h
      obtain ⟨-, n, ⟨hn, hpos⟩, -⟩ := h
      exact ⟨n, hpos, hn⟩
  | batchSize =>
      simp only [set?, Config.batchSize?, Option.ite_none_left_eq_some, Option.map_eq_some_iff,
        Option.filter_eq_some_iff, decide_eq_true_eq] at h
      obtain ⟨-, n, ⟨hn, hpos⟩, -⟩ := h
      exact ⟨n, hpos, hn⟩

/-! ## Group by group -/

variable {o : Options} {rest : List String}

theorem read?_word (flag : Flag) :
    State.read? ⟨o, .argument⟩ (flag.word :: rest) = State.read? ⟨o, .value flag⟩ rest := by
  rw [State.read?_cons, State.step?, readArgument?, argument?_word]
  rfl

theorem read?_value (flag : Flag) (value : String) :
    State.read? ⟨o, .value flag⟩ (value :: rest) =
      if isValue value then (o.set? flag value).bind fun o' => State.read? ⟨o', .argument⟩ rest
      else none := by
  simp only [State.read?_cons, State.step?]
  split
  · exact Option.bind_map
  · rfl

theorem read?_source {source : String} (hsource : isDumpSource source = true) :
    State.read? ⟨o, .dumpSource⟩ (source :: rest) =
      (o.setDump? source).bind fun o' => State.read? ⟨o', .argument⟩ rest := by
  simp only [State.read?_cons, State.step?, if_pos hsource]
  exact Option.bind_map

theorem read?_no_source (hrest : ∀ arg, rest.head? = some arg → isDumpSource arg = false) :
    State.read? ⟨o, .dumpSource⟩ rest =
      (o.setDump? standardInput).bind fun o' => State.read? ⟨o', .argument⟩ rest := by
  cases rest with
  | nil => exact (Option.bind_fun_some _).symm
  | cons arg rest =>
      have harg : ¬ isDumpSource arg = true := by simp [hrest arg rfl]
      simp only [State.read?_cons, State.step?, if_neg harg, Option.bind_assoc]

theorem read?_help (short : Bool) :
    State.read? ⟨o, .argument⟩ ((Group.help short).words ++ rest) =
      State.read? ⟨{ o with help := true }, .argument⟩ rest := by
  cases short <;> rfl

theorem read?_words {g : Group} (hg : g.Fits)
    (hrest : ∀ arg, rest.head? = some arg → isDumpSource arg = false) :
    State.read? ⟨o, .argument⟩ (g.words ++ rest) =
      (g.addTo? o).bind fun o' => State.read? ⟨o', .argument⟩ rest := by
  cases g with
  | valued flag value =>
      refine (read?_word flag).trans ((read?_value flag value).trans ?_)
      exact if_pos hg.isValue
  | dump source =>
      cases source with
      | none => exact read?_no_source hrest
      | some source => exact read?_source (isDumpSource_iff.mpr (hg source rfl))
  | help short => exact read?_help short

theorem read?_flatMap_words {gs : List Group} (hgs : ∀ g ∈ gs, g.Fits) :
    State.read? ⟨o, .argument⟩ (gs.flatMap Group.words) = gs.foldlM Group.addTo? o := by
  induction gs generalizing o with
  | nil => rfl
  | cons g gs ih =>
      obtain ⟨hg, hgs⟩ := List.forall_mem_cons.mp hgs
      rw [List.flatMap_cons, read?_words hg fun _ => isDumpSource_of_head, List.foldlM_cons]
      exact congrArg _ (funext fun o' => ih hgs)

theorem exists_groups_of_read? {args : List String} {o' : Options}
    (h : State.read? ⟨o, .argument⟩ args = some o') :
    ∃ gs : List Group, (∀ g ∈ gs, g.Fits) ∧ args = gs.flatMap Group.words := by
  -- A group takes one argument or two, so the induction is on their number.
  induction hlength : args.length using Nat.strongRecOn generalizing args o with
  | _ k ih =>
      subst hlength
      have hnext (g : Group) {rest : List String} {o₁ : Options} (hg : g.Fits)
          (hargs : args = g.words ++ rest) (hread : State.read? ⟨o₁, .argument⟩ rest = some o') :
          ∃ gs : List Group, (∀ g ∈ gs, g.Fits) ∧ args = gs.flatMap Group.words := by
        have hshorter : rest.length < args.length := by
          rw [hargs, List.length_append]
          have hpos := List.length_pos_iff.mpr g.words_ne_nil
          omega
        obtain ⟨gs, hgs, rfl⟩ := ih rest.length hshorter hread rfl
        exact ⟨g :: gs, List.forall_mem_cons.mpr ⟨hg, hgs⟩, hargs⟩
      cases args with
      | nil => exact ⟨[], by simp, rfl⟩
      | cons arg args =>
          rcases argument?_cases arg with ⟨flag, rfl⟩ | rfl | ⟨short, hshort⟩ | hnone
          · rw [read?_word] at h
            cases args with
            | nil => contradiction
            | cons value rest =>
                rw [read?_value, Option.ite_none_right_eq_some] at h
                obtain ⟨o₁, hset, hread⟩ := Option.bind_eq_some_iff.mp h.2
                exact hnext (.valued flag value) (Flag.takes_of_set? h.1 hset) rfl hread
          · by_cases hsource : ∃ next, args.head? = some next ∧ isDumpSource next = true
            · obtain ⟨next, hnext?, hsource⟩ := hsource
              obtain ⟨rest, rfl⟩ := List.head?_eq_some_iff.mp hnext?
              obtain ⟨o₁, -, hread⟩ :=
                Option.bind_eq_some_iff.mp ((read?_source hsource).symm.trans h)
              refine hnext (.dump (some next)) ?_ rfl hread
              rintro _ ⟨⟩
              exact isDumpSource_iff.mp hsource
            · have hrest : ∀ next, args.head? = some next → isDumpSource next = false := by
                simpa using hsource
              obtain ⟨o₁, -, hread⟩ :=
                Option.bind_eq_some_iff.mp ((read?_no_source hrest).symm.trans h)
              exact hnext (.dump none) (by simp [Group.Fits]) rfl hread
          · have hargs : arg :: args = (Group.help short).words ++ args := by rw [← hshort]; rfl
            rw [hargs, read?_help] at h
            exact hnext (.help short) trivial hargs h
          · rw [State.read?_cons, State.step?, readArgument?, hnone] at h
            contradiction

/-! ## Setting options -/

def isSet (o : Options) : Argument → Bool
  | .valued .repository => o.repository.isSome
  | .valued .revset => o.revset.isSome
  | .valued .limit => o.limit.isSome
  | .valued .batchSize => o.batchSize.isSome
  | .valued .logFile => o.logFile.isSome
  | .dump => o.dump.isSome
  | .help => false

variable {gs : List Group} {g : Group}

theorem isSome_addTo?_iff (hg : g.Fits) : (g.addTo? o).isSome ↔ o.isSet g.argument = false := by
  cases g with
  | valued flag value =>
      cases flag with
      | limit =>
          obtain ⟨n, hpos, hn⟩ := hg
          simp [Group.addTo?, set?, isSet, Group.argument, hn, Option.filter, hpos]
      | batchSize =>
          obtain ⟨n, hpos, hn⟩ := hg
          simp [Group.addTo?, set?, isSet, Group.argument, Config.batchSize?, hn, Option.filter, hpos]
      | _ => simp [Group.addTo?, set?, isSet, Group.argument]
  | dump source => simp [Group.addTo?, setDump?, isSet, Group.argument]
  | help short => simp [Group.addTo?, isSet, Group.argument]

theorem exists_valued_iff {flag : Flag} :
    (∃ g ∈ gs, g.argument = .valued flag) ↔ ∃ v, .valued flag v ∈ gs := by
  constructor
  · rintro ⟨g, hg, hflag⟩
    cases g with
    | valued f v =>
        obtain rfl := Argument.valued.inj hflag
        exact ⟨v, hg⟩
    | dump source => contradiction
    | help short => contradiction
  · rintro ⟨v, hv⟩
    exact ⟨_, hv, rfl⟩

theorem exists_number_iff {flag : Flag} {number? : String → Option Nat}
    (hnumber : ∀ v, .valued flag v ∈ gs → ∃ n, 0 < n ∧ number? v = some n) :
    (∃ n v, .valued flag v ∈ gs ∧ number? v = some n) ↔ ∃ v, .valued flag v ∈ gs := by
  constructor
  · rintro ⟨n, v, hv, -⟩
    exact ⟨v, hv⟩
  · rintro ⟨v, hv⟩
    obtain ⟨n, -, hn⟩ := hnumber v hv
    exact ⟨n, v, hv, hn⟩

theorem exists_dump_iff :
    (∃ g ∈ gs, g.argument = .dump) ↔ ∃ s, .dump (some s) ∈ gs ∨ s = "-" ∧ .dump none ∈ gs := by
  constructor
  · rintro ⟨g, hg, hdump⟩
    cases g with
    | valued f v => contradiction
    | dump source =>
        cases source with
        | none => exact ⟨"-", .inr ⟨rfl, hg⟩⟩
        | some s => exact ⟨s, .inl hg⟩
    | help short => contradiction
  · rintro ⟨s, hs | ⟨-, hs⟩⟩
    · exact ⟨_, hs, rfl⟩
    · exact ⟨_, hs, rfl⟩

theorem Holds.isSet_iff (h : Holds o gs) (hfits : ∀ g ∈ gs, g.Fits) {a : Argument} (ha : a ≠ .help) :
    o.isSet a = true ↔ ∃ g ∈ gs, g.argument = a := by
  cases a with
  | valued flag =>
      rw [exists_valued_iff]
      cases flag with
      | repository => simp only [isSet, Option.isSome_iff_exists, h.repository]
      | revset => simp only [isSet, Option.isSome_iff_exists, h.revset]
      | logFile => simp only [isSet, Option.isSome_iff_exists, h.logFile]
      | limit =>
          simp only [isSet, Option.isSome_iff_exists, h.limit]
          exact exists_number_iff fun v hv => hfits _ hv
      | batchSize =>
          simp only [isSet, Option.isSome_iff_exists, h.batchSize]
          exact exists_number_iff fun v hv => hfits _ hv
  | dump =>
      rw [exists_dump_iff]
      simp only [isSet, Option.isSome_iff_exists, h.dump]
  | help => contradiction

theorem Holds.add {o' : Options} (h : Holds o gs) (hset : o.isSet g.argument = false)
    (hadd : g.addTo? o = some o') : Holds o' (gs ++ [g]) := by
  obtain ⟨hrepository, hrevset, hlimit, hbatchSize, hlogFile, hdump, hhelp⟩ := h
  cases g with
  | valued flag value =>
      cases flag with
      | repository =>
          have hnone : o.repository = none := by simpa [isSet, Group.argument] using hset
          obtain rfl := Option.some.inj (Option.ite_none_left_eq_some.mp hadd).2
          simp only [hnone, reduceCtorEq, false_iff] at hrepository
          constructor <;> grind
      | revset =>
          have hnone : o.revset = none := by simpa [isSet, Group.argument] using hset
          obtain rfl := Option.some.inj (Option.ite_none_left_eq_some.mp hadd).2
          simp only [hnone, reduceCtorEq, false_iff] at hrevset
          constructor <;> grind
      | logFile =>
          have hnone : o.logFile = none := by simpa [isSet, Group.argument] using hset
          obtain rfl := Option.some.inj (Option.ite_none_left_eq_some.mp hadd).2
          simp only [hnone, reduceCtorEq, false_iff] at hlogFile
          constructor <;> grind
      | limit =>
          have hnone : o.limit = none := by simpa [isSet, Group.argument] using hset
          obtain ⟨n, hn, rfl⟩ := Option.map_eq_some_iff.mp (Option.ite_none_left_eq_some.mp hadd).2
          replace hn := (Option.filter_eq_some_iff.mp hn).1
          simp only [hnone, reduceCtorEq, false_iff] at hlimit
          constructor <;> grind
      | batchSize =>
          have hnone : o.batchSize = none := by simpa [isSet, Group.argument] using hset
          obtain ⟨n, hn, rfl⟩ := Option.map_eq_some_iff.mp (Option.ite_none_left_eq_some.mp hadd).2
          replace hn := (Option.filter_eq_some_iff.mp hn).1
          simp only [hnone, reduceCtorEq, false_iff] at hbatchSize
          constructor <;> grind
  | dump source =>
      have hnone : o.dump = none := by simpa [isSet, Group.argument] using hset
      obtain rfl := Option.some.inj (Option.ite_none_left_eq_some.mp hadd).2
      simp only [hnone, reduceCtorEq, false_iff] at hdump
      cases source <;> constructor <;> grind [standardInput]
  | help short =>
      obtain rfl := Option.some.inj hadd
      constructor <;> simp [*]

theorem holds_unique {o' : Options} (h : Holds o gs) (h' : Holds o' gs) : o = o' := by
  have hrepository : o.repository = o'.repository := Option.ext fun v => by
    rw [h.repository, h'.repository]
  have hrevset : o.revset = o'.revset := Option.ext fun v => by rw [h.revset, h'.revset]
  have hlimit : o.limit = o'.limit := Option.ext fun n => by rw [h.limit, h'.limit]
  have hbatchSize : o.batchSize = o'.batchSize := Option.ext fun n => by
    rw [h.batchSize, h'.batchSize]
  have hlogFile : o.logFile = o'.logFile := Option.ext fun v => by rw [h.logFile, h'.logFile]
  have hdump : o.dump = o'.dump := Option.ext fun s => by rw [h.dump, h'.dump]
  have hhelp : o.help = o'.help := Bool.eq_iff_iff.mpr (h.help.trans h'.help.symm)
  cases o
  cases o'
  simp_all

/-! ## All groups -/

theorem holds_empty : Holds .empty [] := by
  constructor <;> simp [empty]

theorem wellFormed_concat_iff :
    WellFormed (gs ++ [g]) ↔ WellFormed gs ∧ g.Fits ∧
      ∀ h ∈ gs, h.argument = g.argument → g.argument = .help := by
  constructor
  · rintro ⟨hfits, honce⟩
    rw [List.forall_mem_append, List.forall_mem_singleton] at hfits
    rw [List.pairwise_append] at honce
    exact ⟨⟨hfits.1, honce.1⟩, hfits.2, fun h hh => honce.2.2 h hh g (List.mem_singleton_self g)⟩
  · rintro ⟨⟨hfits, honce⟩, hg, hnew⟩
    refine ⟨List.forall_mem_append.mpr ⟨hfits, List.forall_mem_singleton.mpr hg⟩,
      List.pairwise_append.mpr ⟨honce, List.pairwise_singleton _ _, fun h hh g' hg' => ?_⟩⟩
    obtain rfl := List.mem_singleton.mp hg'
    exact hnew h hh

theorem Holds.isSet_eq_false_iff (h : Holds o gs) (hgs : WellFormed gs) (a : Argument) :
    o.isSet a = false ↔ ∀ g ∈ gs, g.argument = a → a = .help := by
  by_cases ha : a = .help
  · subst ha
    simp [isSet]
  · rw [← Bool.not_eq_true, h.isSet_iff hgs.fits ha]
    simp [ha]

theorem holds_of_foldlM (hfits : ∀ g ∈ gs, g.Fits)
    (h : gs.foldlM Group.addTo? .empty = some o) : WellFormed gs ∧ Holds o gs := by
  induction gs using List.reverseRecOn generalizing o with
  | nil =>
      obtain rfl := Option.some.inj h
      exact ⟨⟨by simp, .nil⟩, holds_empty⟩
  | append_singleton gs g ih =>
      rw [List.forall_mem_append, List.forall_mem_singleton] at hfits
      rw [List.foldlM_append] at h
      obtain ⟨o', hbefore, hadd⟩ := Option.bind_eq_some_iff.mp h
      obtain ⟨hgs, hholds⟩ := ih hfits.1 hbefore
      replace hadd : g.addTo? o' = some o := (Option.bind_fun_some _).symm.trans hadd
      have hset := (isSome_addTo?_iff hfits.2).mp (Option.isSome_of_eq_some hadd)
      exact ⟨wellFormed_concat_iff.mpr ⟨hgs, hfits.2, (hholds.isSet_eq_false_iff hgs _).mp hset⟩,
        hholds.add hset hadd⟩

theorem exists_foldlM (hgs : WellFormed gs) : ∃ o, gs.foldlM Group.addTo? .empty = some o := by
  induction gs using List.reverseRecOn with
  | nil => exact ⟨.empty, rfl⟩
  | append_singleton gs g ih =>
      obtain ⟨hgs, hg, hnew⟩ := wellFormed_concat_iff.mp hgs
      obtain ⟨o, ho⟩ := ih hgs
      have hholds := (holds_of_foldlM hgs.fits ho).2
      obtain ⟨o', ho'⟩ := Option.isSome_iff_exists.mp
        ((isSome_addTo?_iff hg).mpr ((hholds.isSet_eq_false_iff hgs _).mpr hnew))
      refine ⟨o', ?_⟩
      rw [List.foldlM_append, ho]
      exact (Option.bind_fun_some _).trans ho'

theorem WellFormed.of_perm {gs' : List Group} (h : WellFormed gs) (hperm : gs'.Perm gs) :
    WellFormed gs' := by
  refine ⟨fun g hg => h.fits g (hperm.mem_iff.mp hg), hperm.symm.pairwise h.once ?_⟩
  intro g g' hgg' heq
  exact heq.symm.trans (hgg' heq.symm)

theorem Holds.of_perm {gs' : List Group} (h : Holds o gs) (hperm : gs'.Perm gs) : Holds o gs' := by
  obtain ⟨hrepository, hrevset, hlimit, hbatchSize, hlogFile, hdump, hhelp⟩ := h
  constructor <;> simpa only [hperm.mem_iff]

/-- The arguments that can be used are the groups in any order, each option at most once but the help
flag, and the options are then what the groups give. -/
theorem arguments_are_groups :
    (∀ args, (parse? args).isSome ↔ ∃ gs, WellFormed gs ∧ args = gs.flatMap Group.words) ∧
    ∀ gs, WellFormed gs → ∃ o, Holds o gs ∧
      ∀ gs' : List Group, gs'.Perm gs → parse? (gs'.flatMap Group.words) = some o := by
  have hread {gs : List Group} (hgs : WellFormed gs) :
      ∃ o, parse? (gs.flatMap Group.words) = some o ∧ Holds o gs := by
    obtain ⟨o, ho⟩ := exists_foldlM hgs
    exact ⟨o, (read?_flatMap_words hgs.fits).trans ho, (holds_of_foldlM hgs.fits ho).2⟩
  refine ⟨fun args => ⟨fun h => ?_, ?_⟩, fun gs hgs => ?_⟩
  · obtain ⟨o, ho⟩ := Option.isSome_iff_exists.mp h
    obtain ⟨gs, hfits, rfl⟩ := exists_groups_of_read? ho
    have hfold := (read?_flatMap_words hfits).symm.trans ho
    exact ⟨gs, (holds_of_foldlM hfits hfold).1, rfl⟩
  · rintro ⟨gs, hgs, rfl⟩
    obtain ⟨o, ho, -⟩ := hread hgs
    exact Option.isSome_of_eq_some ho
  · obtain ⟨o, -, hholds⟩ := hread hgs
    refine ⟨o, hholds, fun gs' hperm => ?_⟩
    obtain ⟨o', ho', hholds'⟩ := hread (hgs.of_perm hperm)
    rw [ho', holds_unique hholds' (hholds.of_perm hperm)]

end Options

end RevisionGraph

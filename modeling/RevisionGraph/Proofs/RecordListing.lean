import Mathlib.Data.List.Induction
import Mathlib.Data.List.Perm.Basic
import RevisionGraph.Bookmark.Listing

/-!
# Bookmarks out of records

A record is added to the bookmark of its name wherever that stands among the others, so records of
several names can interleave. What has been read of a listing is described by two facts that every
further record keeps (`Lists.add`): the bookmarks stand in the order in which their names first
appeared, and each is gathered from the records of its name alone (`Bookmark.Gathers`). From these it
follows that no record is lost but for those that a later local one replaces
(`readRecordListing_gathers`).
-/

namespace RevisionGraph

/-! ## Records of a listing -/

namespace BookmarkRecord

def isLocal (r : BookmarkRecord) : Bool :=
  r.remote == localRemote

def isOrigin (r : BookmarkRecord) : Bool :=
  r.remote == "origin"

def ofFields (fields : List (List Char)) : BookmarkRecord :=
  let field (i : Nat) : List Char := fields.getD i []
  ⟨String.ofList (Text.trimWhere (· == '"') (field 0)), String.ofList (field 1),
    field 2 == "true".toList, field 3 == "true".toList, field 4 == "true".toList,
    String.ofList (field 5)⟩

def isRecord (fields : List (List Char)) : Bool :=
  6 ≤ fields.length && fields[1]? != some "git".toList

def listed (output : String) : List BookmarkRecord :=
  (((Text.lines output.toList).map (·.splitOn ';')).filter isRecord).map ofFields

theorem ofLine?_eq (line : List Char) :
    ofLine? line =
      if isRecord (line.splitOn ';') then some (ofFields (line.splitOn ';')) else none := by
  unfold ofLine?
  generalize line.splitOn ';' = fields
  split
  · next name remote tracked conflict backwards commitId rest =>
      by_cases hgit : remote = "git".toList <;> simp [isRecord, ofFields, hgit]
  · next hshort =>
      have hlength : ¬ 6 ≤ fields.length := by
        intro hlong
        match fields, hlong with
        | name :: remote :: tracked :: conflict :: backwards :: commitId :: rest, _ =>
            exact hshort _ _ _ _ _ _ _ rfl
      simp [isRecord, hlength]

theorem filterMap_ofLine? (lines : List (List Char)) :
    lines.filterMap ofLine? = ((lines.map (·.splitOn ';')).filter isRecord).map ofFields := by
  induction lines with
  | nil => rfl
  | cons line lines ih =>
      rw [List.filterMap_cons, ofLine?_eq, List.map_cons, List.filter_cons]
      split <;> simp_all

end BookmarkRecord

/-! ## One bookmark -/

namespace Bookmark

/-- What the records of one name make of a bookmark that the first of them began. -/
structure Gathers (b : Bookmark) (first : BookmarkRecord) (own : List BookmarkRecord) : Prop where
  conflict : b.conflict = first.conflict
  backwards : b.backwards = first.backwards
  pointer : b.pointer = (own.filter (·.isLocal)).getLast?.map BookmarkRecord.pointer
  commitId : b.commitId = ((own.filter (·.isLocal)).getLast?.getD first).commitId
  remotes : b.remotes =
    ((own.filter (·.isOrigin)).reverse ++ own.filter fun r => !r.isLocal && !r.isOrigin).map
      BookmarkRecord.pointer

@[simp] theorem name_addRecord (b : Bookmark) (r : BookmarkRecord) : (b.addRecord r).name = b.name := by
  unfold addRecord
  split
  · rfl
  · split <;> rfl

theorem gathers_nil (first : BookmarkRecord) : first.bookmark.Gathers first [] :=
  ⟨rfl, rfl, rfl, rfl, rfl⟩

theorem Gathers.add {b : Bookmark} {first : BookmarkRecord} {own : List BookmarkRecord}
    (h : b.Gathers first own) (r : BookmarkRecord) : (b.addRecord r).Gathers first (own ++ [r]) := by
  unfold addRecord
  split
  · next hlocal =>
      have hr : r.isLocal = true ∧ r.isOrigin = false := by
        simp [BookmarkRecord.isLocal, BookmarkRecord.isOrigin, hlocal, localRemote]
      constructor
      · exact h.conflict
      · exact h.backwards
      · simp [hr]
      · simp [hr]
      · simpa [hr] using h.remotes
  · next hlocal =>
      split
      · next horigin =>
          have hr : r.isLocal = false ∧ r.isOrigin = true := by
            simp [BookmarkRecord.isLocal, BookmarkRecord.isOrigin, horigin, localRemote]
          constructor
          · exact h.conflict
          · exact h.backwards
          · simpa [hr] using h.pointer
          · simpa [hr] using h.commitId
          · simpa [hr] using h.remotes
      · next horigin =>
          have hr : r.isLocal = false ∧ r.isOrigin = false := by
            simp [BookmarkRecord.isLocal, BookmarkRecord.isOrigin, hlocal, horigin]
          constructor
          · exact h.conflict
          · exact h.backwards
          · simpa [hr] using h.pointer
          · simpa [hr] using h.commitId
          · simp [hr, h.remotes]

end Bookmark

/-! ## The bookmarks of all records -/

theorem map_name_addRecord (r : BookmarkRecord) (bookmarks : List Bookmark) :
    (addRecord r bookmarks).map Bookmark.name =
      if r.name ∈ bookmarks.map Bookmark.name then bookmarks.map Bookmark.name
      else bookmarks.map Bookmark.name ++ [r.name] := by
  induction bookmarks with
  | nil => simp [addRecord, BookmarkRecord.bookmark]
  | cons b rest ih =>
      unfold addRecord
      split
      · next hname => simp [hname]
      · next hname =>
          rw [List.map_cons, ih]
          simp only [List.map_cons, List.mem_cons, Ne.symm hname, false_or]
          split <;> rfl

theorem mem_addRecord {r : BookmarkRecord} {bookmarks : List Bookmark}
    (hnames : (bookmarks.map Bookmark.name).Nodup) {c : Bookmark} (hc : c ∈ addRecord r bookmarks) :
    (c ∈ bookmarks ∧ c.name ≠ r.name) ∨ (∃ b ∈ bookmarks, b.name = r.name ∧ c = b.addRecord r) ∨
      (r.name ∉ bookmarks.map Bookmark.name ∧ c = r.bookmark.addRecord r) := by
  induction bookmarks with
  | nil => exact .inr (.inr ⟨List.not_mem_nil, List.mem_singleton.mp hc⟩)
  | cons b rest ih =>
      obtain ⟨hfresh, hrest⟩ := List.nodup_cons.mp hnames
      unfold addRecord at hc
      split at hc
      · next hname =>
          rcases List.mem_cons.mp hc with rfl | hc
          · exact .inr (.inl ⟨b, List.mem_cons_self .., hname, rfl⟩)
          · refine .inl ⟨List.mem_cons_of_mem _ hc, fun hsame => hfresh ?_⟩
            rw [hname, ← hsame]
            exact List.mem_map_of_mem hc
      · next hname =>
          rcases List.mem_cons.mp hc with rfl | hc
          · exact .inl ⟨List.mem_cons_self .., hname⟩
          · rcases ih hrest hc with ⟨hmem, hother⟩ | ⟨b', hmem, hsame, rfl⟩ | ⟨hnew, rfl⟩
            · exact .inl ⟨List.mem_cons_of_mem _ hmem, hother⟩
            · exact .inr (.inl ⟨b', List.mem_cons_of_mem _ hmem, hsame, rfl⟩)
            · refine .inr (.inr ⟨?_, rfl⟩)
              rw [List.map_cons, List.mem_cons, not_or]
              exact ⟨Ne.symm hname, hnew⟩

theorem eraseDups_concat (names : List String) (name : String) :
    (names ++ [name]).eraseDups =
      if name ∈ names then names.eraseDups else names.eraseDups ++ [name] := by
  rw [List.eraseDups_append]
  split
  · next hmem => simp [List.removeAll, hmem]
  · next hmem => simp [List.removeAll, hmem, List.eraseDups_cons]

structure Lists (records : List BookmarkRecord) (bookmarks : List Bookmark) : Prop where
  names : bookmarks.map Bookmark.name = (records.map BookmarkRecord.name).eraseDups
  nodup : (bookmarks.map Bookmark.name).Nodup
  gathers : ∀ b ∈ bookmarks, ∃ first later,
    records.filter (fun r => r.name = b.name) = first :: later ∧ b.Gathers first (first :: later)

namespace Lists

variable {records : List BookmarkRecord} {bookmarks : List Bookmark}

theorem mem_names (h : Lists records bookmarks) {name : String} :
    name ∈ bookmarks.map Bookmark.name ↔ name ∈ records.map BookmarkRecord.name := by
  rw [h.names, List.mem_eraseDups]

theorem add (h : Lists records bookmarks) (r : BookmarkRecord) :
    Lists (records ++ [r]) (addRecord r bookmarks) := by
  constructor
  · rw [map_name_addRecord, List.map_append, List.map_singleton, eraseDups_concat, h.names]
    simp only [List.mem_eraseDups]
  · rw [map_name_addRecord]
    split
    · exact h.nodup
    · next hnew =>
        refine List.nodup_append.mpr ⟨h.nodup, by simp, ?_⟩
        rintro name hname other hother rfl
        exact hnew (List.mem_singleton.mp hother ▸ hname)
  · intro c hc
    rcases mem_addRecord h.nodup hc with ⟨hmem, hother⟩ | ⟨b, hmem, hsame, rfl⟩ | ⟨hnew, rfl⟩
    · obtain ⟨first, later, hown, hgathers⟩ := h.gathers c hmem
      refine ⟨first, later, ?_, hgathers⟩
      simp [hown, Ne.symm hother]
    · obtain ⟨first, later, hown, hgathers⟩ := h.gathers b hmem
      refine ⟨first, later ++ [r], ?_, hgathers.add r⟩
      rw [Bookmark.name_addRecord, List.filter_append, hown]
      simp [hsame]
    · have hnone : records.filter (fun s => s.name = r.name) = [] := by
        rw [List.filter_eq_nil_iff]
        intro s hs hname
        rw [h.mem_names] at hnew
        exact hnew (of_decide_eq_true hname ▸ List.mem_map_of_mem hs)
      refine ⟨r, [], ?_, (Bookmark.gathers_nil r).add r⟩
      simp [hnone, BookmarkRecord.bookmark]

end Lists

theorem lists_foldl (records : List BookmarkRecord) :
    Lists records (records.foldl (fun bookmarks r => addRecord r bookmarks) []) := by
  -- The records that come first decide on the order, so the induction is from the end.
  induction records using List.reverseRecOn with
  | nil => exact ⟨rfl, .nil, fun b hb => absurd hb List.not_mem_nil⟩
  | append_singleton records r ih =>
      rw [List.foldl_append]
      exact ih.add r

/-! ## Nothing is lost -/

namespace BookmarkRecord

/-- The records that no later one replaces: a local record gives way to the next one of its name. -/
def standing : List BookmarkRecord → List BookmarkRecord
  | [] => []
  | r :: later =>
      if r.isLocal && later.any fun s => s.name == r.name && s.isLocal then standing later
      else r :: standing later

def entry (r : BookmarkRecord) : String × Pointer :=
  (r.name, r.pointer)

theorem standing_sublist (records : List BookmarkRecord) : (standing records).Sublist records := by
  induction records with
  | nil => exact .slnil
  | cons r later ih =>
      unfold standing
      split
      · exact ih.cons r
      · exact ih.cons_cons r

theorem filter_standing (name : String) (records : List BookmarkRecord) :
    (standing records).filter (fun r => r.name = name) =
      standing (records.filter fun r => r.name = name) := by
  induction records with
  | nil => rfl
  | cons r later ih =>
      by_cases hname : r.name = name
      · have hany : (later.filter fun s => s.name = name).any (fun s => s.name == r.name && s.isLocal) =
            later.any fun s => s.name == r.name && s.isLocal := by
          rw [List.any_filter]
          congr 1
          funext s
          by_cases hs : s.name = name <;> simp [hs, hname]
        rw [List.filter_cons_of_pos (by simpa using hname), standing, standing, hany]
        split
        · exact ih
        · rw [List.filter_cons_of_pos (by simpa using hname), ih]
      · rw [List.filter_cons_of_neg (by simpa using hname), standing]
        split
        · exact ih
        · rw [List.filter_cons_of_neg (by simpa using hname), ih]

theorem standing_perm {name : String} {own : List BookmarkRecord} (h : ∀ r ∈ own, r.name = name) :
    (standing own).Perm
      ((own.filter (·.isLocal)).getLast?.toList ++ own.filter fun r => !r.isLocal) := by
  induction own with
  | nil => exact .nil
  | cons r later ih =>
      obtain ⟨hr, hlater⟩ := List.forall_mem_cons.mp h
      have hrest := ih hlater
      have hany : (later.any fun s => s.name == r.name && s.isLocal) = later.any (·.isLocal) := by
        rw [Bool.eq_iff_iff, List.any_eq_true, List.any_eq_true]
        refine exists_congr fun s => and_congr_right fun hs => ?_
        simp [hr, hlater s hs]
      rw [standing, hany]
      cases hlocal : r.isLocal with
      | false => simpa [hlocal] using (hrest.cons r).trans List.perm_middle.symm
      | true =>
          cases hmore : later.any (·.isLocal) with
          | false =>
              have hnone : later.filter (·.isLocal) = [] := by
                simpa using hmore
              simpa [hlocal, hnone] using hrest.cons r
          | true =>
              have hsome : later.filter (·.isLocal) ≠ [] := by
                simpa using hmore
              have hlast : ((r :: later).filter (·.isLocal)).getLast? =
                  (later.filter (·.isLocal)).getLast? := by
                rw [List.filter_cons_of_pos hlocal, List.getLast?_cons,
                  List.getLast?_eq_some_getLast hsome]
                rfl
              rw [hlast, List.filter_cons_of_neg (by simp [hlocal])]
              exact hrest

end BookmarkRecord

namespace Bookmark

theorem Gathers.origin_first {b : Bookmark} {first r : BookmarkRecord} {own : List BookmarkRecord}
    (h : b.Gathers first own) (hr : r ∈ own) (horigin : r.remote = "origin") :
    ∃ p rest, b.remotes = p :: rest ∧ p.remote = "origin" := by
  have hmem : r ∈ (own.filter (·.isOrigin)).reverse :=
    List.mem_reverse.mpr (List.mem_filter.mpr ⟨hr, beq_iff_eq.mpr horigin⟩)
  obtain ⟨o, others, horigins⟩ := List.exists_cons_of_ne_nil (List.ne_nil_of_mem hmem)
  have ho : o ∈ (own.filter (·.isOrigin)).reverse := horigins ▸ List.mem_cons_self ..
  rw [h.remotes, horigins]
  exact ⟨o.pointer, _, rfl, beq_iff_eq.mp (List.mem_filter.mp (List.mem_reverse.mp ho)).2⟩

def entries (b : Bookmark) : List (String × Pointer) :=
  (b.pointer.toList ++ b.remotes).map (b.name, ·)

theorem Gathers.entries_perm {b : Bookmark} {first : BookmarkRecord} {own : List BookmarkRecord}
    (h : b.Gathers first own) (hown : ∀ r ∈ own, r.name = b.name) :
    b.entries.Perm ((BookmarkRecord.standing own).map BookmarkRecord.entry) := by
  have hremotes : ((own.filter (·.isOrigin)).reverse ++
      own.filter fun r => !r.isLocal && !r.isOrigin).Perm (own.filter fun r => !r.isLocal) := by
    have horigins : own.filter (·.isOrigin) =
        (own.filter fun r => !r.isLocal).filter (·.isOrigin) := by
      rw [List.filter_filter]
      congr 1
      funext r
      by_cases horigin : r.remote = "origin" <;>
        simp [BookmarkRecord.isOrigin, BookmarkRecord.isLocal, localRemote, horigin]
    have hothers : (own.filter fun r => !r.isLocal && !r.isOrigin) =
        (own.filter fun r => !r.isLocal).filter fun r => !r.isOrigin := by
      simp only [List.filter_filter, Bool.and_comm]
    rw [horigins, hothers]
    exact (List.reverse_perm _).append_right _ |>.trans (List.filter_append_perm _ _)
  have hentry : (BookmarkRecord.standing own).map BookmarkRecord.entry =
      (BookmarkRecord.standing own).map fun r => (b.name, r.pointer) := by
    apply List.map_congr_left
    intro r hr
    rw [BookmarkRecord.entry, hown r ((BookmarkRecord.standing_sublist own).subset hr)]
  have hpointers : b.entries = ((own.filter (·.isLocal)).getLast?.toList ++
      ((own.filter (·.isOrigin)).reverse ++ own.filter fun r => !r.isLocal && !r.isOrigin)).map
        fun r => (b.name, r.pointer) := by
    rw [entries, h.pointer, h.remotes, Option.toList_map, ← List.map_append, List.map_map]
    rfl
  rw [hentry, hpointers]
  exact ((hremotes.append_left _).trans (BookmarkRecord.standing_perm hown).symm).map _

end Bookmark

/-- Members that share a key with no other group: the groups of all keys are the whole list. -/
theorem flatMap_filter_perm {α : Type} (key : α → String) {keys : List String} (hkeys : keys.Nodup)
    {members : List α} (h : ∀ a ∈ members, key a ∈ keys) :
    (keys.flatMap fun k => members.filter fun a => key a = k).Perm members := by
  induction keys generalizing members with
  | nil =>
      have hnone : members = [] := List.eq_nil_iff_forall_not_mem.mpr fun a ha => by simpa using h a ha
      simp [hnone]
  | cons k rest ih =>
      obtain ⟨hk, hrest⟩ := List.nodup_cons.mp hkeys
      have hothers : (rest.flatMap fun k' => members.filter fun a => key a = k') =
          rest.flatMap fun k' => (members.filter fun a => !decide (key a = k)).filter
            fun a => key a = k' := by
        apply List.flatMap_congr
        intro k' hk'
        rw [List.filter_filter]
        apply List.filter_congr
        intro a ha
        have hne : k' ≠ k := fun hsame => hk (hsame ▸ hk')
        by_cases hkey : key a = k' <;> simp [hkey, hne]
      have hpart : (rest.flatMap fun k' => (members.filter fun a => !decide (key a = k)).filter
          fun a => key a = k').Perm (members.filter fun a => !decide (key a = k)) := by
        apply ih hrest
        intro a ha
        obtain ⟨hmem, hother⟩ := List.mem_filter.mp ha
        rcases List.mem_cons.mp (h a hmem) with hsame | hmore
        · simp [hsame] at hother
        · exact hmore
      rw [List.flatMap_cons, hothers]
      exact (hpart.append_left _).trans (List.filter_append_perm _ members)

theorem Lists.entries_perm {records : List BookmarkRecord} {bookmarks : List Bookmark}
    (h : Lists records bookmarks) :
    (bookmarks.flatMap Bookmark.entries).Perm
      ((BookmarkRecord.standing records).map BookmarkRecord.entry) := by
  have hown : (bookmarks.flatMap Bookmark.entries).Perm (bookmarks.flatMap fun b =>
      ((BookmarkRecord.standing records).filter fun r => r.name = b.name).map
        BookmarkRecord.entry) := by
    apply List.Perm.flatMap_left
    intro b hb
    obtain ⟨first, later, hfilter, hgathers⟩ := h.gathers b hb
    rw [BookmarkRecord.filter_standing, hfilter]
    apply hgathers.entries_perm
    intro r hr
    rw [← hfilter] at hr
    exact of_decide_eq_true (List.mem_filter.mp hr).2
  have hnames : ∀ r ∈ BookmarkRecord.standing records, r.name ∈ bookmarks.map Bookmark.name := by
    intro r hr
    rw [h.mem_names]
    exact List.mem_map_of_mem ((BookmarkRecord.standing_sublist records).subset hr)
  have hgroups := flatMap_filter_perm BookmarkRecord.name h.nodup hnames
  rw [List.flatMap_map] at hgroups
  rw [← List.map_flatMap] at hown
  exact hown.trans (hgroups.map _)

/-- The bookmarks of a listing stand in the order in which their names first appear in its records, and
each has what the records of its name give it. All pointers are there but for local ones that a later
one replaced, and where there is a record of `origin` the first remote is one. -/
theorem readRecordListing_gathers (output : String) :
    (readRecordListing output).map Bookmark.name =
        ((BookmarkRecord.listed output).map BookmarkRecord.name).eraseDups ∧
      (∀ b ∈ readRecordListing output, ∃ first later,
        (BookmarkRecord.listed output).filter (fun r => r.name = b.name) = first :: later ∧
          b.Gathers first (first :: later)) ∧
      ((readRecordListing output).flatMap Bookmark.entries).Perm
        ((BookmarkRecord.standing (BookmarkRecord.listed output)).map BookmarkRecord.entry) ∧
      (∀ b ∈ readRecordListing output, ∀ r ∈ BookmarkRecord.listed output, r.name = b.name →
        r.remote = "origin" → ∃ p rest, b.remotes = p :: rest ∧ p.remote = "origin") := by
  have hlists : Lists (BookmarkRecord.listed output) (readRecordListing output) := by
    rw [readRecordListing, BookmarkRecord.filterMap_ofLine?]
    exact lists_foldl (BookmarkRecord.listed output)
  refine ⟨hlists.names, hlists.gathers, hlists.entries_perm, ?_⟩
  intro b hb r hr hname horigin
  obtain ⟨first, later, hown, hgathers⟩ := hlists.gathers b hb
  apply hgathers.origin_first _ horigin
  rw [← hown]
  exact List.mem_filter.mpr ⟨hr, decide_eq_true hname⟩

example :
    readRecordListing
        "b;up;;;;1\na;.;;;;9\n\"b\";.;;;;3\nb;git;;;;7\nb;origin;;;;4\nshort;.\nb;.;;;;5" =
      [⟨"b", some ⟨".", "5", false⟩, [⟨"origin", "4", false⟩, ⟨"up", "1", false⟩], false, false, "5"⟩,
        ⟨"a", some ⟨".", "9", false⟩, [], false, false, "9"⟩] := by
  decide +kernel

end RevisionGraph

import RevisionGraph.Bookmark
import RevisionGraph.Terminal.Unstyled
import RevisionGraph.Text.Blank

/-!
# Bookmark listings

A plain listing has one line for each bookmark: its name, a mark if it is in conflict, and its
change id. A record listing has one line for each bookmark and remote, with fields between
semicolons; the records of one name become one bookmark. Lines of any other form are skipped.
-/

namespace RevisionGraph

def localRemote : String :=
  "."

/-! ## Plain listings -/

def conflictMark : List Char :=
  "(conflict)".toList

def plainBookmark (name target : List Char) (conflict : Bool) : Bookmark :=
  let commitId := String.ofList target
  ⟨String.ofList (unstyled name), some ⟨localRemote, commitId, false⟩, [], conflict, false, commitId⟩

def plainBookmark? (line : List Char) : Option Bookmark :=
  match Text.words line with
  | name :: second :: third :: _ =>
      if second = conflictMark then some (plainBookmark name third true)
      else some (plainBookmark name second false)
  | [name, target] => some (plainBookmark name target false)
  | _ => none

def readPlainListing (output : String) : List Bookmark :=
  (Text.lines output.toList).filterMap plainBookmark?

/-! ## Record listings -/

structure BookmarkRecord where
  name : String
  remote : String
  tracked : Bool
  conflict : Bool
  backwards : Bool
  commitId : String
  deriving DecidableEq, Repr

namespace BookmarkRecord

/-- Fields after the sixth are ignored, and so is the remote of the backing store. -/
def ofLine? (line : List Char) : Option BookmarkRecord :=
  match line.splitOn ';' with
  | name :: remote :: tracked :: conflict :: backwards :: commitId :: _ =>
      if remote = "git".toList then none
      else some
        ⟨String.ofList (Text.trimWhere (· == '"') name), String.ofList remote,
          tracked == "true".toList, conflict == "true".toList, backwards == "true".toList,
          String.ofList commitId⟩
  | _ => none

def pointer (r : BookmarkRecord) : Pointer :=
  ⟨r.remote, r.commitId, r.tracked⟩

def bookmark (r : BookmarkRecord) : Bookmark :=
  ⟨r.name, none, [], r.conflict, r.backwards, r.commitId⟩

end BookmarkRecord

/-- The local pointer is the last one read; `origin` goes before all other remotes. -/
def Bookmark.addRecord (b : Bookmark) (r : BookmarkRecord) : Bookmark :=
  if r.remote = localRemote then { b with commitId := r.commitId, pointer := some r.pointer }
  else if r.remote = "origin" then { b with remotes := r.pointer :: b.remotes }
  else { b with remotes := b.remotes ++ [r.pointer] }

def addRecord (r : BookmarkRecord) : List Bookmark → List Bookmark
  | [] => [r.bookmark.addRecord r]
  | b :: rest => if b.name = r.name then b.addRecord r :: rest else b :: addRecord r rest

def readRecordListing (output : String) : List Bookmark :=
  ((Text.lines output.toList).filterMap BookmarkRecord.ofLine?).foldl
    (fun bookmarks r => addRecord r bookmarks) []

end RevisionGraph

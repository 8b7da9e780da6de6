/-!
# Commands

The invocations of `jj` that the dashboard makes: their arguments, and how they read in messages.
-/

namespace RevisionGraph

inductive Command where
  | log (revset : Option String) (limit : Option Nat)
  | listBookmarks
  | listMovable (revision : String)
  | moveBookmark (name revision : String)
  | createBookmark (name revision : String)
  | deleteBookmark (name : String)
  | forgetBookmark (name : String)
  | trackBookmark (name remote : String)
  | untrackBookmark (name remote : String)
  | new (revisions : List String)
  deriving DecidableEq, Repr

namespace Command

def listTemplate : String :=
  "if(conflict, label(\"bookmark\", name) ++ \" (conflict)\", label(\"bookmark\", name))" ++
    " ++ \" \" ++ coalesce(normal_target.change_id().shortest(6), \"(deleted)\") ++ \"\\n\""

/-- One record for each remote of a bookmark. The fifth field says whether the bookmark would move
backwards. -/
def movableTemplate (after : String) : String :=
  "separate(\";\", name, if(remote, remote, \".\"), tracked, conflict, " ++
    "normal_target.contained_in(\"" ++ after ++ "\"), " ++
    "normal_target.commit_id().shortest(1)) ++ \"\\n\""

def descendants (revision : String) : String :=
  revision ++ "::"

def lineage (revision : String) : String :=
  "::" ++ revision ++ " | " ++ descendants revision

def args : Command → List String
  | .log revset limit =>
      ["log", "--color", "always"] ++
        (revset.map fun r => ["-r", r]).getD [] ++
        (limit.map fun n => ["--limit", toString n]).getD []
  | .listBookmarks => ["bookmark", "list", "--color", "always", "--template", listTemplate]
  | .listMovable revision =>
      ["bookmark", "list", "-r", lineage revision, "--template",
        movableTemplate (descendants revision), "--color", "never"]
  | .moveBookmark name revision => ["bookmark", "move", name, "--to", revision]
  | .createBookmark name revision => ["bookmark", "create", name, "-r", revision]
  | .deleteBookmark name => ["bookmark", "delete", name]
  | .forgetBookmark name => ["bookmark", "forget", name]
  | .trackBookmark name remote => ["bookmark", "track", name ++ "@" ++ remote]
  | .untrackBookmark name remote => ["bookmark", "untrack", name ++ "@" ++ remote]
  | .new revisions => "new" :: revisions

/-- Templates, colours and limits are left out. -/
def display : Command → String
  | .log none _ => "jj log"
  | .log (some revset) _ => "jj log -r " ++ revset
  | .listBookmarks => "jj bookmark list"
  | .listMovable revision => "jj bookmark list -r " ++ lineage revision
  | c => "jj " ++ " ".intercalate c.args

def isChange : Command → Bool
  | .log .. | .listBookmarks | .listMovable .. => false
  | _ => true

end Command

end RevisionGraph

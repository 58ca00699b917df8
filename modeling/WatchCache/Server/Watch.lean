import WatchCache.Hub.Source
import WatchCache.Server.Fetch

set_option autoImplicit false

/-!
# Watching the objects of a kind

A watch asks for all objects, page by page, and then for what happens to them from the version of
that listing on.  Every event moves the version, and when the answer ends the server is asked
again from there.  The objects are listed anew when the listing fails, when a version is missing,
and when the server says that the version is too old.

The watch is a machine: `request` is what it asks for next, `receive` is what it makes of the
answer.  What it hears of objects is passed on without the record of who set which fields.
-/

namespace WatchCache

namespace Watch

/-- What is watched. -/
structure Target where
  resource : Resource
  ns : Option String
  selector : Option LabelSelector
  /-- The kind as errors call it. -/
  kindKey : String
  deriving DecidableEq, Repr, Inhabited

/-- How far the watch has come. -/
inductive State where
  /-- The pages listed so far hold these objects; the next one continues at a token. -/
  | listing (continueAt : Option String) (objects : List Object)
  | watching (version : String)
  deriving DecidableEq, Repr, Inhabited

/-- The start of a listing. -/
def State.start : State := .listing none []

/-! ## Requests -/

/-- The part of a query that selects by labels. -/
def Target.labelQuery (t : Target) : List (String × String) :=
  match t.selector with
  | some s => if s.isEmpty then [] else [("labelSelector", s.text)]
  | none => []

/-- The query of the next request. -/
def State.query (t : Target) : State → List (String × String)
  | .listing continueAt _ =>
    t.labelQuery ++ [("limit", "500")] ++ continueAt.toList.map fun c => ("continue", c)
  | .watching version =>
    [("watch", "true"), ("timeoutSeconds", "290")] ++ t.labelQuery ++
    [("allowWatchBookmarks", "true"), ("resourceVersion", version)]

/-- The next request. -/
def State.request (t : Target) (s : State) : Except TargetFault Request :=
  Request.ofTarget (Request.target (t.resource.path t.ns) (s.query t))

/-! ## Listings -/

/-- One page of a listing. -/
structure Page where
  version : String
  continueAt : Option String
  objects : List Object
  deriving DecidableEq, Repr, Inhabited

/-- The parts of a page that were met so far. -/
structure PageParts where
  metadata : Option Json := none
  objects : Option (List Object) := none

/-- Reads the items of a page; null stands for none. -/
def readItems : Reader (List Object) := do
  let objects ← Reader.orNull (Reader.array "a sequence" (Reader.items Object.read))
  return objects.getD []

/-- Reads the member of a page that has this key. -/
def readPageMember (p : PageParts) (key : String) : Reader PageParts := do
  match key, p with
  | "metadata", ⟨none, _⟩ =>
    return { p with metadata := some (← Reader.afterColon Schema.listMeta.read) }
  | "items", ⟨_, none⟩ => return { p with objects := some (← Reader.afterColon readItems) }
  | "metadata", _ | "items", _ => Reader.refuseObject (.repeatedField key)
  | _, _ =>
    let _ ← Reader.afterColon Reader.value
    return p

/-- Reads a page.  Its items have to be there. -/
def readPage : Reader Page := Reader.object "struct ObjectList" do
  let p ← Reader.members {} readPageMember
  let text (name : String) : Option String :=
    p.metadata.bind fun m => (m.get? name).bind Metadata.string?
  match p.objects with
  | none => Reader.refuseObject (.missingField "items")
  | some objects => return ⟨(text "resourceVersion").getD "", text "continue", objects⟩

/-! ## Lines of a watch -/

/-- What one line of a watch tells. -/
inductive Line where
  | added (object : Object)
  | modified (object : Object)
  | deleted (object : Object)
  | bookmark (version : String)
  | error (report : StatusReport)
  /-- A failure that is no event. -/
  | refusal (report : StatusReport)
  | garbage
  /-- The line ends before its text is complete. -/
  | unfinished
  deriving DecidableEq, Repr, Inhabited

/-- The types of events. -/
inductive EventType where
  | added
  | modified
  | deleted
  | bookmark
  | error
  deriving DecidableEq, Repr

/-- The name of a type of events. -/
def EventType.ofName? : String → Option EventType
  | "ADDED" => some .added
  | "MODIFIED" => some .modified
  | "DELETED" => some .deleted
  | "BOOKMARK" => some .bookmark
  | "ERROR" => some .error
  | _ => none

/-- Reads the name of a type of events. -/
def readTypeName : Reader EventType := do
  let name ← Reader.text
  match EventType.ofName? name with
  | some t => return t
  | none => Reader.refuse (.badText ("unknown variant `" ++ name ++ "`"))

/-- Reads null. -/
def readNull : Reader Unit := do
  match ← Reader.scalar "unit" with
  | .null => return
  | j => Reader.refuse (.wrongType (.ofJson j) "unit")

/-- Goes past the brace behind a type of events. -/
def closeType : Reader Unit := do
  match ← Reader.nextSign? with
  | none => Reader.failHere .objectUnfinished
  | some '\x7d' => Reader.advance
  | some _ => Reader.failHere .expectedValue

/-- Reads a type of events: its name, or an object with null under its name. -/
def readType : Reader EventType := do
  match ← Reader.nextSign? with
  | none => Reader.failAhead .valueUnfinished
  | some '"' => readTypeName
  | some '\x7b' =>
    let body : Reader EventType := do
      let t ← readTypeName
      Reader.afterColon readNull
      return t
    Reader.within body closeType
  | some _ => Reader.failAhead .expectedValue

/-- The members of the metadata of a bookmark. -/
def bookmarkFields : List (Record.Field Json) :=
  [⟨"resourceVersion", Json.string <$> Reader.text, false, false⟩,
   ⟨"annotations", (Schema.dict .text).read, true, true⟩]

/-- Reads a bookmark: its version is in its metadata, and it has to have a type. -/
def readBookmark : Reader String := Reader.object "struct Bookmark" do
  let start : Option String × List (String × Json) := (none, [])
  let (version, others) ← Reader.members start fun (version, others) key => do
    if key ≠ "metadata" then
      return (version, (key, ← Reader.afterColon Reader.value) :: others)
    else if version.isSome then Reader.refuseObject (.repeatedField key)
    else
      let found ← Reader.afterColon (Record.read "struct BookmarkMeta" bookmarkFields)
      return (some (((Record.get? found "resourceVersion").bind Metadata.string?).getD ""), others)
  match version, (Object.takeTypes none none others.reverse).1 with
  | some version, some _ => return version
  | none, some _ => Reader.refuseObject (.missingField "metadata")
  | _, none => Reader.refuseObject (.missingField "apiVersion")

/-- Reads what an event of a type is about. -/
def readSubject : EventType → Reader Line
  | .added => .added <$> Object.read
  | .modified => .modified <$> Object.read
  | .deleted => .deleted <$> Object.read
  | .bookmark => .bookmark <$> readBookmark
  | .error => .error <$> StatusReport.read

/-- The parts of an event that were met so far. -/
inductive EventParts where
  | nothing
  | type (type : EventType)
  /-- The subject was met here, before the type. -/
  | subject (start : Cursor)
  | both (line : Line)

/-- Reads the member of an event that has this key.  A subject that stands before the type is
first read as any value; what it is about is read when the type is known. -/
def readEventMember (p : EventParts) (key : String) : Reader EventParts := do
  match key, p with
  | "type", .nothing => .type <$> Reader.afterColon readType
  | "type", .subject start =>
    let t ← Reader.afterColon readType
    let behind ← get
    set start
    let line ← readSubject t
    set behind
    return .both line
  | "object", .nothing =>
    Reader.colon
    let start ← get
    let _ ← Reader.value
    return .subject start
  | "object", .type t => .both <$> Reader.afterColon (readSubject t)
  | "type", _ | "object", _ => Reader.refuseObject (.repeatedField key)
  | _, _ =>
    Reader.afterColon Reader.skip
    return p

/-- Reads the members of an event: its type and its subject, each once. -/
def readEventObject : Reader Line := do
  match ← Reader.members .nothing readEventMember with
  | .both line => return line
  | .type _ => Reader.refuseObject (.missingField "object")
  | _ => Reader.refuseObject (.missingField "type")

/-- Reads the items of an event: its type and its subject. -/
def readEventArray : Reader Line := do
  let expected := "adjacently tagged enum WatchEvent"
  match ← Reader.item? true readType with
  | none => Reader.refuseArray (.wrongLength 0 expected 2)
  | some t =>
    match ← Reader.item? false (readSubject t) with
    | none => Reader.refuseArray (.wrongLength 1 expected 2)
    | some line => return line

/-- Reads an event. -/
def readEvent : Reader Line :=
  Reader.arrayOrObject "adjacently tagged enum WatchEvent" readEventArray readEventObject

/-- What the text of a line tells. -/
def Line.ofText (text : String) : Line :=
  match readEvent.run text with
  | .ok line => line
  | .error e =>
    if e.problem.isUnfinished then .unfinished
    else match StatusReport.ofText? text with
      | some report => .refusal report
      | none => .garbage

/-! ## Answers -/

/-- The version of an object, if it has one that is not empty. -/
def versionOf? (o : Object) : Option String :=
  match Json.member? "resourceVersion" o.metadata.others with
  | some (.string v) => if v = "" then none else some v
  | _ => none

/-- A failure of the watch. -/
def Target.failure (t : Target) (message : String) : Item :=
  .failure (.remote ("watch " ++ t.kindKey ++ ": " ++ message))

/-- The failure for a version that is missing. -/
def Target.noVersion (t : Target) : Item :=
  t.failure "no metadata.resourceVersion in watch result (does resource support watch?)"

/-- The failure of a listing. -/
def Target.listFailure (t : Target) (f : RequestFailure) : Item :=
  t.failure ("failed to perform initial object list: " ++ f.message)

/-- The failure of a request for what happens. -/
def Target.startFailure (t : Target) (f : RequestFailure) : Item :=
  t.failure ("failed to start watching object: " ++ f.message)

/-- The failure of a stream. -/
def Target.streamFailure (t : Target) (f : RequestFailure) : Item :=
  t.failure ("watch stream failed: " ++ f.message)

/-- What an event makes of the watch: an item, and the version after it. -/
def Target.onEvent (t : Target) (o : Object) (make : Object → Event) : Item × State :=
  match versionOf? o with
  | some version => (.event (make o), .watching version)
  | none => (t.noVersion, .start)

/-- What one line makes of the watch. -/
def Target.onLine (t : Target) (version : String) : Line → List Item × State
  | .added o | .modified o => let (i, s) := t.onEvent o .applied; ([i], s)
  | .deleted o => let (i, s) := t.onEvent o .deleted; ([i], s)
  | .bookmark v => ([], .watching v)
  | .error r =>
    ([t.failure ("error returned by apiserver during watch: " ++ r.summary)],
      if r.code = 410 then .start else .watching version)
  | .refusal r => ([t.streamFailure (.refused r)], .watching version)
  | .garbage => ([t.streamFailure (.undecodable "")], .watching version)
  | .unfinished => ([], .watching version)

/-- What the lines of an answer make of the watch; those after a loss of the version do not
matter. -/
def Target.onLines (t : Target) (version : String) : List Line → List Item × State
  | [] => ([], .watching version)
  | line :: rest =>
    match t.onLine version line with
    | (items, .watching version) =>
      let (more, s) := t.onLines version rest
      (items ++ more, s)
    | (items, s) => (items, s)

/-- The lines of a body; a carriage return at the end of a line does not belong to it. -/
def linesOf (body : String) : List String :=
  (Text.splitOn '\n' body.toList).map fun line =>
    String.ofList (if line.getLast? = some '\r' then line.dropLast else line)

/-- What a page makes of the watch. -/
def Target.onPage (t : Target) (objects : List Object) (p : Page) : List Item × State :=
  let all := objects ++ p.objects
  match p.continueAt.filter (· ≠ "") with
  | some c => ([], .listing (some c) all)
  | none =>
    if p.version = "" then ([t.noVersion], .start)
    else ([.event (.restarted all)], .watching p.version)

/-- What an answer makes of the watch. -/
def Target.receive (t : Target) (s : State) (answer : Response) : List Item × State :=
  match s with
  | .listing _ objects =>
    match answer.read readPage with
    | .ok p => t.onPage objects p
    | .error f => ([t.listFailure f], .start)
  | .watching version => t.onLines version ((linesOf answer.body).map Line.ofText)

/-- What the failure of a request makes of the watch. -/
def Target.onFailure (t : Target) (f : RequestFailure) : State → List Item × State
  | .listing _ _ => ([t.listFailure f], .start)
  | .watching version => ([t.startFailure f], .watching version)

/-- What the outcome of a request makes of the watch. -/
def Target.meet (t : Target) (s : State) : Except RequestFailure Response → List Item × State
  | .ok answer => t.receive s answer
  | .error f => t.onFailure f s

/-- The requests of a watch that have these outcomes, with the first one that has none, and what
it hears. -/
def Target.hear (t : Target) (s : State) :
    List (Except RequestFailure Response) → List Request × List Item
  | [] =>
    match s.request t with
    | .error f => ([], (t.onFailure (.badObjectTarget f) s).1)
    | .ok request => ([request], [])
  | outcome :: rest =>
    match s.request t with
    | .error f => ([], (t.onFailure (.badObjectTarget f) s).1)
    | .ok request =>
      let (items, s) := t.meet s outcome
      let (requests, more) := t.hear s rest
      (request :: requests, items ++ more)

end Watch

/-! ## Passing on -/

/-- The event about objects without the record of who set which fields. -/
def Event.withoutManagedFields : Event → Event
  | .applied o => .applied o.withoutManagedFields
  | .deleted o => .deleted o.withoutManagedFields
  | .restarted objects => .restarted (objects.map Object.withoutManagedFields)

/-- The item about objects without the record of who set which fields. -/
def Item.withoutManagedFields : Item → Item
  | .event e => .event e.withoutManagedFields
  | item => item

/-- The items of a watch whose requests have these outcomes. -/
def Watch.Target.items (t : Target) (outcomes : List (Except RequestFailure Response)) :
    List Item := (t.hear .start outcomes).2.map Item.withoutManagedFields

/-- The requests and the items of a watch whose server gives these answers and then falls
silent. -/
def Watch.Target.run (t : Target) (s : State) (answers : List Response) :
    List Request × List Item :=
  let (requests, items) := t.hear s (answers.map .ok)
  (requests, items.map Item.withoutManagedFields)

end WatchCache

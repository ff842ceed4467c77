import ComponentUsage.Extraction
import ComponentUsage.Proofs.Disk.Placing
import ComponentUsage.Proofs.Json.RoundTrip
import ComponentUsage.Settings.Layers
/-!
# Documents that are read back

A document is read from its file as it was saved. It is taken apart again into the flat view or
the tree that it shows, so different ones never make the same file (`documents_read_back`).
-/

namespace ComponentUsage

/-! ## Taking documents apart -/

/-- Values that were each put into a form are got back from it. -/
theorem mapM_map_of_leftInverse {α β : Type} {f : α → β} {g : β → Option α} (h : ∀ a, g (f a) = some a)
    (l : List α) : (l.map f).mapM g = some l := by
  induction l with
  | nil => rfl
  | cons a l ih => simp [h, ih]

/-- The text that a value is. -/
def Json.text? : Json → Option String
  | .text s => some s
  | _ => none

/-- The component that a member of a flat document shows. -/
def GraphEntry.ofJson? : Json → Option GraphEntry
  | .object [("name", .text name), ("parents", .list parents)] => do
    return ⟨name, ← parents.mapM Json.text?⟩
  | _ => none

/-- The flat view that a document shows. -/
def Graph.ofJson? : Json → Option Graph
  | .object members => do
    let entries ← members.mapM fun (selector, v) => (GraphEntry.ofJson? v).map (selector, ·)
    if distinct : (entries.map Prod.fst).Nodup then some ⟨entries, distinct⟩ else none
  | _ => none

theorem GraphEntry.ofJson?_toJson (e : GraphEntry) : ofJson? e.toJson = some e := by
  have hparents : (e.parents.map Json.text).mapM Json.text? = some e.parents :=
    mapM_map_of_leftInverse (fun s => show Json.text? (.text s) = some s from rfl) e.parents
  simp [toJson, ofJson?, Json.texts, hparents]

theorem Graph.ofJson?_toJson (graph : Graph) : ofJson? graph.toJson = some graph := by
  have hentries : (graph.entries.map fun e => (e.1, e.2.toJson)).mapM
      (fun m => (GraphEntry.ofJson? m.2).map (m.1, ·)) = some graph.entries :=
    mapM_map_of_leftInverse (fun e => by rw [GraphEntry.ofJson?_toJson]; rfl) graph.entries
  simp [toJson, ofJson?, hentries, graph.distinct]

namespace UsageTree

/-- The template path that a member shows, which may be null. -/
def pathOfJson? : Json → Option (Option String)
  | .null => some none
  | .text p => some (some p)
  | _ => none

mutual

/-- The tree that a document shows. -/
def ofJson? : Json → Option UsageTree
  | .object [("name", .text name), ("selector", .text selector), ("path", path), ("children", .list children)] => do
    return .node name selector (← pathOfJson? path) (← listOfJson? children)
  | _ => none

def listOfJson? : List Json → Option (List UsageTree)
  | [] => some []
  | v :: vs => do return (← ofJson? v) :: (← listOfJson? vs)

end

mutual

theorem ofJson?_toJson : ∀ t : UsageTree, ofJson? t.toJson = some t
  | .node name selector path children => by
    have hchildren := listOfJson?_listToJson children
    cases path <;> simp [toJson, ofJson?, pathOfJson?, hchildren]

theorem listOfJson?_listToJson : ∀ ts : List UsageTree, listOfJson? (listToJson ts) = some ts
  | [] => by simp [listToJson, listOfJson?]
  | t :: ts => by simp [listToJson, listOfJson?, ofJson?_toJson t, listOfJson?_listToJson ts]

end

end UsageTree

/-! ## Documents hold no numbers -/

theorem GraphEntry.plain_toJson (e : GraphEntry) : e.toJson.Plain := by
  refine ⟨by simp, ?_⟩
  simp [Json.PlainMembers, Json.Plain, Json.plain_texts]

theorem Graph.plain_toJson (graph : Graph) : graph.toJson.Plain := by
  refine ⟨?_, ?_⟩
  · rw [List.map_map]
    exact graph.distinct
  · apply Json.plainMembers_iff.2
    intro m hm
    obtain ⟨e, -, rfl⟩ := List.mem_map.1 hm
    exact e.2.plain_toJson

namespace UsageTree

mutual

theorem plain_toJson : ∀ t : UsageTree, t.toJson.Plain
  | .node name selector path children => by
    have hchildren := plainItems_listToJson children
    cases path <;> simp [toJson, Json.Plain, Json.PlainMembers, hchildren]

theorem plainItems_listToJson : ∀ ts : List UsageTree, Json.PlainItems (listToJson ts)
  | [] => trivial
  | t :: ts => ⟨plain_toJson t, plainItems_listToJson ts⟩

end

end UsageTree

/-! ## From the disk -/

/-- What was saved is read from where it was saved. -/
theorem World.read_of_save {w v : World} {p text : String} (ha : Path.isAbsolute w.here.workingDirectory = true)
    (h : w.save p text = (v, .ok ())) : v.read (w.here.absolute p) = .ok text.toUTF8 := by
  obtain ⟨hcheck, hallow, hne, hfit⟩ := path_of_save h
  obtain ⟨hrest, hlook⟩ := look_of_save h
  obtain ⟨slashes, ns, hs, hn, hpath⟩ := Place.absolute_eq_pathOf ha p
  rw [hpath] at hcheck hallow hne hfit hlook ⊢
  rw [Path.names_pathOf hs hn] at hne hfit hlook
  have hget := Node.get?_of_look_file hlook
  have hfind : v.find (pathOf slashes ns) = .ok (.file text.toUTF8) :=
    (find_pathOf_eq_ok_iff hs hn).2 ⟨hcheck, hfit, Node.isFolder_of_get?_ne_nil hne hget, hget⟩
  have hopen : v.allow (pathOf slashes ns) = .ok () := by
    rw [hrest]
    exact hallow
  rw [read, hopen, Fault.ok_bind, hfind]
  rfl

namespace Extraction

/-- A document is read from its text, and from every file in which it was saved. -/
def ReadsBack (doc : Json) : Prop :=
  Json.parse? (fileText doc) = some doc ∧
    ∀ (w v : World) (p : String), Path.isAbsolute w.here.workingDirectory = true →
      w.save p (fileText doc) = (v, .ok ()) → Settings.readJson v (w.here.absolute p) = .ok (some doc)

theorem readsBack_of_plain {doc : Json} (h : doc.Plain) : ReadsBack doc := by
  refine ⟨Json.parse?_print h .indented rfl _, ?_⟩
  intro w v p ha hsave
  rw [Settings.readJson, World.read_of_save ha hsave, Fault.ok_bind, fileText, Json.ofBytes?_print h]
  rfl

/-- A view of the usage that is saved as a document. -/
inductive View where
  | flat (graph : Graph)
  | rooted (tree : UsageTree)

namespace View

def toJson : View → Json
  | .flat graph => graph.toJson
  | .rooted tree => tree.toJson

/-- The text of a view's file. -/
def text (view : View) : String := fileText view.toJson

theorem plain_toJson (view : View) : view.toJson.Plain := by
  cases view with
  | flat graph => exact graph.plain_toJson
  | rooted tree => exact tree.plain_toJson

/-- The members of a flat document are objects, and the first member of a tree is a text. -/
theorem toJson_flat_ne (graph : Graph) (tree : UsageTree) : graph.toJson ≠ tree.toJson := by
  intro h
  obtain ⟨name, selector, path, children⟩ := tree
  obtain ⟨entries, distinct⟩ := graph
  cases entries with
  | nil => simp [Graph.toJson, UsageTree.toJson] at h
  | cons e entries => simp [Graph.toJson, UsageTree.toJson, GraphEntry.toJson] at h

theorem toJson_injective : Function.Injective toJson := by
  intro view view' h
  cases view with
  | flat graph =>
    cases view' with
    | flat graph' =>
      have hview : some graph = some graph' := by
        rw [← graph.ofJson?_toJson, ← graph'.ofJson?_toJson]
        exact congrArg Graph.ofJson? h
      rw [Option.some.inj hview]
    | rooted tree' => exact absurd h (toJson_flat_ne graph tree')
  | rooted tree =>
    cases view' with
    | flat graph' => exact absurd h.symm (toJson_flat_ne graph' tree)
    | rooted tree' =>
      have hview : some tree = some tree' := by
        rw [← tree.ofJson?_toJson, ← tree'.ofJson?_toJson]
        exact congrArg UsageTree.ofJson? h
      rw [Option.some.inj hview]

/-- Views whose files have the same text are one view. -/
theorem text_injective : Function.Injective text := by
  intro view view' h
  have hread : some view.toJson = some view'.toJson := by
    rw [← (readsBack_of_plain view.plain_toJson).1, ← (readsBack_of_plain view'.plain_toJson).1]
    exact congrArg (Json.parse? ·) h
  exact toJson_injective (Option.some.inj hread)

end View

/-- Of a registry and its usage both documents, flat and as the tree at a registered selector, are
read back as they are. The flat view is got back with its selectors in order and their users, and
the tree with all its names and paths. No other view of any usage has the same file. -/
theorem documents_read_back (soil : UsageTree.Soil) {root : String} (h : root ∈ soil.registry.keys) :
    let graph := soil.registry.graph soil.usage
    ∃ tree cycles, UsageTree.ofRoot soil root = .ok (tree, cycles) ∧
      ReadsBack graph.toJson ∧ Graph.ofJson? graph.toJson = some graph ∧
      ReadsBack tree.toJson ∧ UsageTree.ofJson? tree.toJson = some tree ∧
      ∀ view : View, (view.text = fileText graph.toJson → view = .flat graph) ∧
        (view.text = fileText tree.toJson → view = .rooted tree) := by
  intro graph
  obtain ⟨c, hc⟩ := Table.mem_keys_iff.1 h
  have hroot : UsageTree.ofRoot soil root = .ok (UsageTree.grow soil [root] root c) := by
    rw [UsageTree.ofRoot, hc]
  generalize UsageTree.grow soil [root] root c = grown at hroot
  obtain ⟨tree, cycles⟩ := grown
  refine ⟨tree, cycles, hroot, ?_, graph.ofJson?_toJson, ?_, tree.ofJson?_toJson, ?_⟩
  · exact readsBack_of_plain graph.plain_toJson
  · exact readsBack_of_plain tree.plain_toJson
  · intro view
    constructor
    · intro htext
      apply View.text_injective
      exact htext
    · intro htext
      apply View.text_injective
      exact htext

/-- Selectors with quotes and line ends in them, of which one uses the other. -/
def escaped : UsageTree.Soil where
  registry := .ofList [
    ("a\"b", ⟨"a\"b", "app\\a", "/app/a.component.ts", some "/app/a.component.html"⟩),
    ("c\nd", ⟨"c\nd", "", "/app/c.component.ts", none⟩)]
  usage := .ofList [("a\"b", []), ("c\nd", ["a\"b"])]
  shown := id

theorem documents_read_back_escaped :
    "a\"b" ∈ escaped.registry.keys ∧
      ∃ tree cycles, UsageTree.ofRoot escaped "a\"b" = .ok (tree, cycles) ∧
        Json.parse? (fileText (escaped.registry.graph escaped.usage).toJson) =
          some (escaped.registry.graph escaped.usage).toJson ∧
        (escaped.registry.graph escaped.usage).entries =
          [("a\"b", ⟨"app\\a", []⟩), ("c\nd", ⟨"", ["a\"b"]⟩)] ∧
        Json.parse? (fileText tree.toJson) = some tree.toJson ∧ UsageTree.ofJson? tree.toJson = some tree := by
  have hroot : "a\"b" ∈ escaped.registry.keys := by decide
  obtain ⟨tree, cycles, htree, hgraph, -, hread, hback, -⟩ := documents_read_back escaped hroot
  exact ⟨hroot, tree, cycles, htree, hgraph.1, by decide, hread.1, hback⟩

end Extraction
end ComponentUsage

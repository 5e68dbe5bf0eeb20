import ActionItems.Yaml.Scalar

/-!
# The value of a YAML document

The nodes of a document are given values level by level from the root: first all scalars that the
collections of one level hold, in order, then those of the collections inside them (`Builder`), so
of several bad scalars the one nearest to the root is reported. A mapping takes over the entries of
the mappings that it merges; its own entries win over them, and the first mapping merged over later
ones. Keys must not be collections. `read` gives the value of a text, which is null if it has no
document.
-/

namespace ActionItems.Yaml

/-- What is known of the value of a node. -/
inductive Plan where
  | unknown
  /-- A collection that was not looked into yet. -/
  | waiting
  | scalar (v : Value)
  | list (items : List Nat)
  /-- A list of pairs. -/
  | pairs (entries : List (Nat × Nat))
  | map (entries : List (Nat × Nat))
  /-- The keys of a mapping. -/
  | set (entries : List (Nat × Nat))
deriving Repr, Inhabited

/-- The nodes of a document with what is known of their values, and the collections to be looked
into, the next one first. -/
structure Builder where
  nodes : Graph
  plans : Array Plan
  queue : List Nat := []

namespace Builder

/-- A step of the building. -/
abbrev Step := StateT Builder (Except Error)

/-- The text is no document. -/
def fail {α : Type} (f : Fault) : Step α := throw (.malformed f)

/-- The node at a position. -/
def nodeAt (position : Nat) : Step Node := return (← get).nodes.getD position default

/-- Gives the node at a position its content. -/
def fill (position : Nat) (content : Content) : Step Unit :=
  modify fun b => { b with nodes := b.nodes.modify position fun n => { n with content := content } }

/-- Gives the node at a position its tag. -/
def retag (position : Nat) (tag : String) : Step Unit :=
  modify fun b => { b with nodes := b.nodes.modify position fun n => { n with tag := tag } }

/-- Says what is known of the value of a node. -/
def plan (position : Nat) (p : Plan) : Step Unit :=
  modify fun b => { b with plans := b.plans.setIfInBounds position p }

/-- The entries of a mapping. -/
def entriesOf : Content → List (Nat × Nat)
  | .mapping entries => entries
  | _ => []

/-- The text that stands for a node read as a scalar: a mapping is read as its entry of the key
`=`. -/
def scalarText : Nat → Nat → Step (List Nat)
  | 0, _ => fail .kind
  | fuel + 1, position => do
    match (← nodeAt position).content with
    | .scalar text => return text
    | .sequence _ => fail .kind
    | .mapping entries =>
      let tagged ← entries.filterM fun (k, _) => return (← nodeAt k).tag = standardTag "value"
      match tagged with
      | (_, v) :: _ => scalarText fuel v
      | [] => fail .kind

/-- Whether a tag is that of a collection. -/
def isCollectionTag (tag : String) : Bool :=
  ["seq", "map", "set", "omap", "pairs"].any fun name => standardTag name == tag

/-- The name of a tag of the language. -/
def tagName (tag : String) : String :=
  if tagBase.toList.isPrefixOf tag.toList then String.ofList (tag.toList.drop tagBase.length)
  else ""

/-- Gives a node a value, or puts it off if it is a collection. -/
def visit (position : Nat) : Step Unit := do
  let b ← get
  match b.plans.getD position .unknown with
  | .unknown =>
    let node ← nodeAt position
    if isCollectionTag node.tag then
      plan position .waiting
      modify fun b => { b with queue := b.queue ++ [position] }
    else
      let name := tagName node.tag
      if (scalarValue? name true []).isNone then fail .unknownTag
      let text ← scalarText (b.nodes.size + 1) position
      let direct := match node.content with
        | .scalar _ => true
        | _ => false
      match scalarValue? name direct text with
      | some (.ok v) => plan position (.scalar v)
      | some (.error e) => throw e
      | none => fail .unknownTag
  | _ => return

mutual

/-- Puts the entries of merged mappings into the mapping at a position, in place of the entries that
ask for it. -/
def flatten : Nat → Nat → Step Unit
  | 0, _ => fail .merge
  | fuel + 1, position => flattenFrom fuel position 0 []

/-- Goes on with the entry of an index; `merged` are the entries taken over so far. -/
def flattenFrom : Nat → Nat → Nat → List (Nat × Nat) → Step Unit
  | 0, _, _, _ => fail .merge
  | fuel + 1, position, index, merged => do
    let entries := entriesOf (← nodeAt position).content
    match entries[index]? with
    | none => if !merged.isEmpty then fill position (.mapping (merged ++ entries))
    | some (k, v) =>
      let tag := (← nodeAt k).tag
      if tag = standardTag "merge" then
        fill position (.mapping (entries.eraseIdx index))
        let more ←
          match (← nodeAt v).content with
          | .mapping _ =>
            flatten fuel v
            pure (entriesOf (← nodeAt v).content)
          | .sequence items => flattenAll fuel items []
          | .scalar _ => fail .merge
        flattenFrom fuel position index (merged ++ more)
      else
        if tag = standardTag "value" then retag k (standardTag "str")
        flattenFrom fuel position (index + 1) merged

/-- The entries of mappings that are merged together, with those of earlier ones behind. -/
def flattenAll : Nat → List Nat → List (Nat × Nat) → Step (List (Nat × Nat))
  | 0, _, _ => fail .merge
  | _ + 1, [], merged => return merged
  | fuel + 1, item :: more, merged => do
    match (← nodeAt item).content with
    | .mapping _ =>
      flatten fuel item
      flattenAll fuel more (entriesOf (← nodeAt item).content ++ merged)
    | _ => fail .merge

end

/-- Whether a node was put off as a collection. -/
def isCollection (position : Nat) : Step Bool := do
  match (← get).plans.getD position .unknown with
  | .unknown | .scalar _ => return false
  | _ => return true

/-- Visits the keys and values of entries; a key must be no collection. -/
def visitEntries : List (Nat × Nat) → Step Unit
  | [] => return
  | (k, v) :: more => do
    visit k
    if ← isCollection k then fail .key
    visit v
    visitEntries more

/-- Looks into a node as a mapping. -/
def mappingEntries (position : Nat) : Step (List (Nat × Nat)) := do
  match (← nodeAt position).content with
  | .mapping _ =>
    let size := (← get).nodes.size
    flatten ((size + 2) * (size + 2)) position
    let entries := entriesOf (← nodeAt position).content
    visitEntries entries
    return entries
  | _ => fail .kind

/-- Looks into the items of a sequence of mappings of one entry each. -/
def pairEntries : List Nat → Step (List (Nat × Nat))
  | [] => return []
  | item :: more => do
    match (← nodeAt item).content with
    | .mapping [(k, v)] =>
      visit k
      visit v
      return (k, v) :: (← pairEntries more)
    | _ => fail .kind

/-- Looks into a collection. -/
def open? (position : Nat) : Step Unit := do
  let node ← nodeAt position
  match tagName node.tag, node.content with
  | "seq", .sequence items =>
    for item in items do visit item
    plan position (.list items)
  | "map", _ => plan position (.map (← mappingEntries position))
  | "set", _ => plan position (.set (← mappingEntries position))
  | _, .sequence items => plan position (.pairs (← pairEntries items))
  | _, _ => fail .kind

/-- Looks into all collections that were put off. -/
def openAll : Nat → Step Unit
  | 0 => return
  | fuel + 1 => do
    match (← get).queue with
    | [] => return
    | position :: rest =>
      modify fun b => { b with queue := rest }
      open? position
      openAll fuel

/-- What is known of the values of all nodes that the root leads to. -/
def plansOf (root : Nat) (nodes : Graph) : Except Error (Array Plan) := do
  let start : Builder := ⟨nodes, Array.replicate nodes.size .unknown, []⟩
  let ((), b) ← (do visit root; openAll (nodes.size + 1) : Step Unit).run start
  return b.plans

end Builder

/-! ### Values of planned nodes -/

/-- The values found so far, by position. -/
abbrev Known := Array (Option Value)

mutual

/-- The value of a node inside the collections `inside`. -/
def valueAt (plans : Array Plan) : Nat → List Nat → Nat → StateM Known Value
  | 0, _, _ => return .cycle
  | fuel + 1, inside, position => do
    match (← get).getD position none with
    | some v => return v
    | none =>
      if inside.contains position then return .cycle
      let inside := position :: inside
      let v ←
        match plans.getD position .unknown with
        | .scalar v => pure v
        | .list items => do pure (.list (← valuesAt plans fuel inside items))
        | .pairs entries => do
          let values ← entriesAt plans fuel inside entries
          pure (.list (values.map fun (k, v) => .tuple [k, v]))
        | .map entries => do
          let values ← entriesAt plans fuel inside entries
          pure (.map (values.foldl (fun es (k, v) => Value.insert k v es) []))
        | .set entries => do
          let values ← entriesAt plans fuel inside entries
          let keys := values.foldl (fun es (k, v) => Value.insert k v es) []
          pure (.set (keys.map Prod.fst))
        | _ => pure .null
      modify fun known => known.setIfInBounds position (some v)
      return v

/-- The values of nodes in order. -/
def valuesAt (plans : Array Plan) : Nat → List Nat → List Nat → StateM Known (List Value)
  | 0, _, _ => return []
  | _ + 1, _, [] => return []
  | fuel + 1, inside, item :: more => do
    let v ← valueAt plans fuel inside item
    return v :: (← valuesAt plans fuel inside more)

/-- The keys and values of entries in order. -/
def entriesAt (plans : Array Plan) :
    Nat → List Nat → List (Nat × Nat) → StateM Known (List (Value × Value))
  | 0, _, _ => return []
  | _ + 1, _, [] => return []
  | fuel + 1, inside, (k, v) :: more => do
    let key ← valueAt plans fuel inside k
    let value ← valueAt plans fuel inside v
    return (key, value) :: (← entriesAt plans fuel inside more)

end

/-- The value of a document from its root. -/
def Graph.value (root : Nat) (nodes : Graph) : Except Error Value := do
  let plans ← Builder.plansOf root nodes
  let size := nodes.size
  return ((valueAt plans ((size + 2) * (size + 2)) [] root).run (Array.replicate size none)).1

/-- The value of a text. -/
def read (s : String) : Except Error Value := do
  match ← Graph.ofTokens? (TokenStream.ofText s.toList) with
  | none => return .null
  | some (root, nodes) => Graph.value root nodes

end ActionItems.Yaml

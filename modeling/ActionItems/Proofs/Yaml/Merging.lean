import ActionItems.Proofs.Stateful
import ActionItems.Yaml.Document

/-!
# Merged mappings

An entry with the merge key asks for the entries of another mapping, or of each mapping of a
sequence (`Graph.Names`). What a mapping has in the end are its own entries and those of the
mappings that it merges, which may merge others in turn (`Graph.Offers`). `Builder.flatten` puts
them all into the mapping, and changes the mappings that it goes through on the way: a mapping may
ask for itself, so it takes the asking entry away before it follows it.

What changes is told by `Evolves`: nothing is offered that was not offered before. What stays is
told by `Flattened`: an entry that a mapping offered is still offered by it, or is now an entry of
the mapping that was flattened.
-/

namespace ActionItems.Yaml

namespace Graph

/-- The node at a position. -/
def nodeAt (g : Graph) (p : Nat) : Node := g.getD p default

/-- The tag of the node at a position. -/
def tag (g : Graph) (p : Nat) : String := (g.nodeAt p).tag

/-- What the node at a position holds. -/
def content (g : Graph) (p : Nat) : Content := (g.nodeAt p).content

/-- The entries of the node at a position. -/
def entries (g : Graph) (p : Nat) : List (Nat × Nat) := Builder.entriesOf (g.content p)

/-- Whether the node at a position is a mapping. -/
def IsMapping (g : Graph) (p : Nat) : Prop := ∃ es, g.content p = .mapping es

/-- Whether a key asks for the entries of other mappings. -/
def IsMergeKey (g : Graph) (k : Nat) : Prop := g.tag k = standardTag "merge"

/-- The graph with other content at a position. -/
def refill (g : Graph) (p : Nat) (c : Content) : Graph :=
  g.modify p fun n => { n with content := c }

/-- The graph without the entry of an index. -/
def erase (g : Graph) (p index : Nat) : Graph :=
  g.refill p (.mapping ((g.entries p).eraseIdx index))

/-- The graph with another tag at a position. -/
def retag (g : Graph) (p : Nat) (t : String) : Graph := g.modify p fun n => { n with tag := t }

variable {g g' : Graph} {p q : Nat}

theorem nodeAt_modify_ne {f : Node → Node} (h : q ≠ p) : nodeAt (g.modify p f) q = g.nodeAt q := by
  simp [nodeAt, Array.getD_eq_getD_getElem?, Array.getElem?_modify, h.symm]

theorem nodeAt_modify_self {f : Node → Node} (h : p < g.size) :
    nodeAt (g.modify p f) p = f (g.nodeAt p) := by
  simp [nodeAt, Array.getD_eq_getD_getElem?, h, Array.getElem_modify_self]

theorem nodeAt_of_size_le (h : g.size ≤ p) : g.nodeAt p = default := by
  simp [nodeAt, Array.getD_eq_getD_getElem?, h]

theorem apply_nodeAt_modify {α : Type} {part : Node → α} {f : Node → Node}
    (h : ∀ n, part (f n) = part n) : part (nodeAt (g.modify p f) q) = part (g.nodeAt q) := by
  by_cases hq : q = p
  · subst hq
    by_cases hsize : q < g.size
    · rw [nodeAt_modify_self hsize, h]
    · rw [nodeAt_of_size_le (by simpa using hsize), nodeAt_of_size_le (Nat.le_of_not_lt hsize)]
  · rw [nodeAt_modify_ne hq]

@[simp] theorem size_refill {c : Content} : (g.refill p c).size = g.size := Array.size_modify

@[simp] theorem tag_refill {c : Content} : (g.refill p c).tag q = g.tag q :=
  apply_nodeAt_modify fun _ => rfl

theorem content_refill_ne {c : Content} (h : q ≠ p) : (g.refill p c).content q = g.content q :=
  congrArg Node.content (nodeAt_modify_ne h)

theorem IsMapping.lt_size (h : g.IsMapping p) : p < g.size := by
  refine Nat.lt_of_not_le fun hp => ?_
  obtain ⟨es, hes⟩ := h
  rw [content, nodeAt_of_size_le hp] at hes
  cases hes

theorem lt_size_of_tag_ne (h : g.tag p ≠ "") : p < g.size := by
  refine Nat.lt_of_not_le fun hp => h ?_
  rw [tag, nodeAt_of_size_le hp]
  rfl

theorem content_refill_self {c : Content} (h : g.IsMapping p) : (g.refill p c).content p = c :=
  congrArg Node.content (nodeAt_modify_self h.lt_size)

@[simp] theorem size_retag {t : String} : (g.retag p t).size = g.size := Array.size_modify

@[simp] theorem content_retag {t : String} : (g.retag p t).content q = g.content q :=
  apply_nodeAt_modify fun _ => rfl

theorem tag_retag_ne {t : String} (h : q ≠ p) : (g.retag p t).tag q = g.tag q :=
  congrArg Node.tag (nodeAt_modify_ne h)

theorem tag_retag_self {t : String} (h : g.tag p ≠ "") : (g.retag p t).tag p = t :=
  congrArg Node.tag (nodeAt_modify_self (lt_size_of_tag_ne h))

@[simp] theorem entries_retag {t : String} : (g.retag p t).entries q = g.entries q := by
  simp [entries]

theorem entries_refill_ne {c : Content} (h : q ≠ p) : (g.refill p c).entries q = g.entries q :=
  congrArg Builder.entriesOf (content_refill_ne h)

theorem entries_refill_self {es : List (Nat × Nat)} (h : g.IsMapping p) :
    (g.refill p (.mapping es)).entries p = es :=
  congrArg Builder.entriesOf (content_refill_self h)

@[simp] theorem isMergeKey_refill {c : Content} : (g.refill p c).IsMergeKey q ↔ g.IsMergeKey q := by
  simp [IsMergeKey]

theorem isMapping_of_mem_entries {e : Nat × Nat} (h : e ∈ g.entries p) : g.IsMapping p := by
  unfold entries at h
  cases hc : g.content p with
  | mapping es => exact ⟨es, hc⟩
  | scalar _ | sequence _ => simp [hc, Builder.entriesOf] at h

/-! ### What is offered -/

/-- The nodes that a value of the merge key names: itself, or the items of a sequence. -/
def Names (g : Graph) (v q : Nat) : Prop :=
  q = v ∨ ∃ items, g.content v = .sequence items ∧ q ∈ items

/-- What the mapping at a position has: its entries and those of the mappings that it merges. -/
inductive Offers (g : Graph) : Nat → Nat × Nat → Prop
  | own {p : Nat} {e : Nat × Nat} : e ∈ g.entries p → ¬ g.IsMergeKey e.1 → Offers g p e
  | merged {p q : Nat} {ask e : Nat × Nat} :
      ask ∈ g.entries p → g.IsMergeKey ask.1 → g.Names ask.2 q → Offers g q e → Offers g p e

/-- No entry of a position asks for the entries of other mappings. -/
def MergeFree (g : Graph) (p : Nat) : Prop := ∀ e ∈ g.entries p, ¬ g.IsMergeKey e.1

theorem Offers.not_isMergeKey {e : Nat × Nat} (h : g.Offers p e) : ¬ g.IsMergeKey e.1 := by
  induction h with
  | own _ hk => exact hk
  | merged _ _ _ _ ih => exact ih

theorem Offers.isMapping {e : Nat × Nat} (h : g.Offers p e) : g.IsMapping p := by
  cases h with
  | own he _ => exact isMapping_of_mem_entries he
  | merged hask _ _ _ => exact isMapping_of_mem_entries hask

theorem MergeFree.mem_of_offers {e : Nat × Nat} (free : g.MergeFree p) (h : g.Offers p e) :
    e ∈ g.entries p := by
  cases h with
  | own he _ => exact he
  | merged hask hk _ _ => exact absurd hk (free _ hask)

end Graph

open ActionItems.Yaml.Graph

/-! ### What changes -/

/-- The graph `g'` comes from `g` by putting entries of merged mappings in place of what asks for
them. -/
structure Evolves (g g' : Graph) : Prop where
  size : g'.size = g.size
  tag : ∀ p, g'.tag p = g.tag p ∨ g.tag p = standardTag "value" ∧ g'.tag p = standardTag "str"
  content : ∀ p, g'.content p = g.content p ∨ g.IsMapping p ∧ g'.IsMapping p
  asks : ∀ p, ∀ e ∈ g'.entries p, g.IsMergeKey e.1 → e ∈ g.entries p
  offered : ∀ p, ∀ e ∈ g'.entries p, ¬ g.IsMergeKey e.1 → g.Offers p e

namespace Evolves

variable {g g' g'' : Graph} {p q : Nat}

theorem refl (g : Graph) : Evolves g g where
  size := rfl
  tag _ := .inl rfl
  content _ := .inl rfl
  asks _ _ he _ := he
  offered _ _ he hk := .own he hk

theorem isMergeKey_iff (h : Evolves g g') : g'.IsMergeKey p ↔ g.IsMergeKey p := by
  unfold IsMergeKey
  rcases h.tag p with same | ⟨before, after⟩
  · rw [same]
  · rw [before, after]
    decide

theorem content_eq_sequence_iff (h : Evolves g g') {items : List Nat} :
    g'.content p = .sequence items ↔ g.content p = .sequence items := by
  rcases h.content p with same | ⟨⟨es, hes⟩, es', hes'⟩
  · rw [same]
  · simp [hes, hes']

theorem content_eq_scalar_iff (h : Evolves g g') {t : List Nat} :
    g'.content p = .scalar t ↔ g.content p = .scalar t := by
  rcases h.content p with same | ⟨⟨es, hes⟩, es', hes'⟩
  · rw [same]
  · simp [hes, hes']

theorem isMapping_iff (h : Evolves g g') : g'.IsMapping p ↔ g.IsMapping p := by
  rcases h.content p with same | ⟨before, after⟩
  · simp [IsMapping, same]
  · exact iff_of_true after before

theorem names_iff (h : Evolves g g') : g'.Names p q ↔ g.Names p q := by
  simp [Names, h.content_eq_sequence_iff]

theorem offers (h : Evolves g g') {e : Nat × Nat} (he : g'.Offers p e) : g.Offers p e := by
  induction he with
  | own he hk => exact h.offered _ _ he (mt h.isMergeKey_iff.2 hk)
  | merged hask hk hq _ ih =>
    have merge := h.isMergeKey_iff.1 hk
    exact .merged (h.asks _ _ hask merge) merge (h.names_iff.1 hq) ih

theorem trans (h : Evolves g g') (h' : Evolves g' g'') : Evolves g g'' where
  size := h'.size.trans h.size
  tag p := by
    rcases h'.tag p with same | ⟨before, after⟩
    · rw [same]
      exact h.tag p
    · rcases h.tag p with same | ⟨-, str⟩
      · exact .inr ⟨same ▸ before, after⟩
      · exact absurd (str.symm.trans before) (by decide)
  content p := by
    rcases h'.content p with same | ⟨before, after⟩
    · rcases h.content p with same' | both
      · exact .inl (same.trans same')
      · exact .inr ⟨both.1, h'.isMapping_iff.2 both.2⟩
    · exact .inr ⟨h.isMapping_iff.1 before, after⟩
  asks p e he hk := h.asks p e (h'.asks p e he (h.isMergeKey_iff.2 hk)) hk
  offered p e he hk := h.offers (h'.offered p e he (mt h.isMergeKey_iff.1 hk))

/-- What is offered is still offered if every node has the entries that it had. -/
theorem offers_of_subset {g₀ : Graph} (h : Evolves g₀ g) (h' : Evolves g₀ g')
    (grows : ∀ q, ∀ e ∈ g.entries q, e ∈ g'.entries q) {e : Nat × Nat} (he : g.Offers p e) :
    g'.Offers p e := by
  have keys (k : Nat) : g'.IsMergeKey k ↔ g.IsMergeKey k :=
    h'.isMergeKey_iff.trans h.isMergeKey_iff.symm
  induction he with
  | own he hk => exact .own (grows _ _ he) (mt (keys _).1 hk)
  | merged hask hk hq _ ih =>
    exact .merged (grows _ _ hask) ((keys _).2 hk) (h'.names_iff.2 (h.names_iff.1 hq)) ih

/-- A mapping may be given entries that it had, and such as were offered. -/
theorem refill (h : Evolves g g') (hp : g'.IsMapping p) {es : List (Nat × Nat)}
    (hes : ∀ e ∈ es, e ∈ g'.entries p ∨ g.Offers p e) : Evolves g (g'.refill p (.mapping es)) where
  size := by simpa using h.size
  tag q := by simpa using h.tag q
  content q := by
    by_cases hq : q = p
    · subst hq
      exact .inr ⟨h.isMapping_iff.1 hp, es, content_refill_self hp⟩
    · simpa only [IsMapping, content_refill_ne hq] using h.content q
  asks q e he hk := by
    by_cases hq : q = p
    · subst hq
      rw [entries_refill_self hp] at he
      rcases hes e he with hold | hoffers
      · exact h.asks q e hold hk
      · exact absurd hk hoffers.not_isMergeKey
    · exact h.asks q e (by rwa [entries_refill_ne hq] at he) hk
  offered q e he hk := by
    by_cases hq : q = p
    · subst hq
      rw [entries_refill_self hp] at he
      exact (hes e he).elim (fun hold => h.offered q e hold hk) id
    · exact h.offered q e (by rwa [entries_refill_ne hq] at he) hk

theorem retag (h : Evolves g g') (hp : g'.tag p = standardTag "value") :
    Evolves g (g'.retag p (standardTag "str")) where
  size := by simpa using h.size
  tag q := by
    by_cases hq : q = p
    · subst hq
      have given : g'.tag q ≠ "" := by
        rw [hp]
        decide
      rcases h.tag q with same | ⟨before, -⟩
      · exact .inr ⟨same ▸ hp, tag_retag_self given⟩
      · exact .inr ⟨before, tag_retag_self given⟩
    · rw [tag_retag_ne hq]
      exact h.tag q
  content q := by simpa only [IsMapping, content_retag] using h.content q
  asks q e he := h.asks q e (by simpa using he)
  offered q e he := h.offered q e (by simpa using he)

end Evolves

/-! ### What stays -/

/-- Every mapping has the entries that it had, or asks for none of others. -/
def Stays (g g' : Graph) : Prop := ∀ p, g'.entries p = g.entries p ∨ g'.MergeFree p

theorem Stays.trans {g₀ g g' g'' : Graph} (h : Stays g g') (h' : Stays g' g'')
    (evolves : Evolves g₀ g') (evolves' : Evolves g₀ g'') : Stays g g'' := by
  intro p
  rcases h' p with same | free
  · refine (h p).imp same.trans fun free e he => ?_
    rw [evolves'.isMergeKey_iff, ← evolves.isMergeKey_iff]
    exact free e (same ▸ he)
  · exact .inr free

/-- The mapping at `p` is flattened on the way from `g` to `g'`, and has the entries `merged` then.
What is offered is told from `g₀`, where `merged` were not yet taken over. -/
structure Flattened (g₀ g g' : Graph) (p : Nat) (merged : List (Nat × Nat)) : Prop where
  evolves : Evolves g₀ g'
  free : g'.MergeFree p
  keeps : ∀ q e, g.Offers q e → g'.Offers q e ∨ e ∈ g'.entries p
  merged : ∀ e ∈ merged, e ∈ g'.entries p
  stays : Stays g g'

/-- What mappings that are merged together offered is gathered on the way from `g` to `g'`. -/
structure Gathered (g g' : Graph) (items : List Nat) (merged result : List (Nat × Nat)) : Prop where
  evolves : Evolves g g'
  mem_iff : ∀ e, e ∈ result ↔ e ∈ merged ∨ ∃ q ∈ items, g.Offers q e
  keeps : ∀ q e, g.Offers q e → g'.Offers q e ∨ e ∈ result
  stays : Stays g g'

/-- What the nodes named by a value of the merge key offered is fetched on the way from `g` to
`g'`. -/
structure Fetched (g g' : Graph) (v : Nat) (result : List (Nat × Nat)) : Prop where
  evolves : Evolves g g'
  mem_iff : ∀ e, e ∈ result ↔ ∃ q, g.Names v q ∧ g.Offers q e
  keeps : ∀ q e, g.Offers q e → g'.Offers q e ∨ e ∈ result
  stays : Stays g g'

section

variable {g₀ g g' g'' : Graph} {p v index : Nat} {merged more result : List (Nat × Nat)}

/-- **A flattened mapping has just the entries that it offered.** -/
theorem Flattened.mem_entries_iff (h : Flattened g g g' p []) {e : Nat × Nat} :
    e ∈ g'.entries p ↔ g.Offers p e :=
  ⟨fun he => h.evolves.offers (.own he (h.free e he)),
    fun he => (h.keeps p e he).elim h.free.mem_of_offers id⟩

theorem Fetched.of_flattened (hv : g.IsMapping v) (h : Flattened g g g' v []) :
    Fetched g g' v (g'.entries v) where
  evolves := h.evolves
  mem_iff e := by
    obtain ⟨es, hes⟩ := hv
    simp [h.mem_entries_iff, Names, hes]
  keeps := h.keeps
  stays := h.stays

theorem Fetched.of_gathered {items : List Nat} (hv : g.content v = .sequence items)
    (h : Gathered g g' items [] result) : Fetched g g' v result where
  evolves := h.evolves
  mem_iff e := by
    rw [h.mem_iff]
    constructor
    · rintro (hnil | ⟨q, hq, he⟩)
      · cases hnil
      · exact ⟨q, .inr ⟨items, hv, hq⟩, he⟩
    · rintro ⟨q, rfl | ⟨items', hv', hq⟩, he⟩
      · obtain ⟨es, hes⟩ := he.isMapping
        simp [hv] at hes
      · rw [hv] at hv'
        cases hv'
        exact .inr ⟨q, hq, he⟩
  keeps := h.keeps
  stays := h.stays

theorem Gathered.nil : Gathered g g [] merged merged where
  evolves := .refl g
  mem_iff e := by simp
  keeps _ _ he := .inl he
  stays _ := .inl rfl

theorem Gathered.cons {item : Nat} {items : List Nat} (h : Flattened g g g' item [])
    (h' : Gathered g' g'' items (g'.entries item ++ merged) result) :
    Gathered g g'' (item :: items) merged result where
  evolves := h.evolves.trans h'.evolves
  mem_iff e := by
    rw [h'.mem_iff, List.mem_append, h.mem_entries_iff]
    simp only [List.mem_cons, or_and_right, exists_or, exists_eq_left]
    constructor
    · rintro ((he | he) | ⟨q, hq, he⟩)
      · exact .inr (.inl he)
      · exact .inl he
      · exact .inr (.inr ⟨q, hq, h.evolves.offers he⟩)
    · rintro (he | he | ⟨q, hq, he⟩)
      · exact .inl (.inr he)
      · exact .inl (.inl he)
      · rcases h.keeps q e he with hoffers | hentry
        · exact .inr ⟨q, hq, hoffers⟩
        · exact .inl (.inl (h.mem_entries_iff.1 hentry))
  keeps q e he := by
    rcases h.keeps q e he with hoffers | hentry
    · exact h'.keeps q e hoffers
    · exact .inr ((h'.mem_iff e).2 (.inl (List.mem_append_left _ hentry)))
  stays := h.stays.trans h'.stays h.evolves (h.evolves.trans h'.evolves)

/-! ### Entry by entry -/

/-- The entries of `p` before the one of the index ask for no others, and `merged` were offered by
`p`. -/
structure Ready (g₀ g : Graph) (p index : Nat) (merged : List (Nat × Nat)) : Prop where
  evolves : Evolves g₀ g
  mapping : g.IsMapping p
  done : ∀ e ∈ (g.entries p).take index, ¬ g.IsMergeKey e.1
  offered : ∀ e ∈ merged, g₀.Offers p e

theorem Ready.flattened (ready : Ready g₀ g p index merged) (hend : (g.entries p)[index]? = none)
    (evolves : Evolves g₀ g') (hself : g'.entries p = merged ++ g.entries p)
    (hne : ∀ q, q ≠ p → g'.entries q = g.entries q) : Flattened g₀ g g' p merged := by
  have hdone : ∀ e ∈ g.entries p, ¬ g.IsMergeKey e.1 := by
    rw [← List.take_of_length_le (List.getElem?_eq_none_iff.1 hend)]
    exact ready.done
  have free : g'.MergeFree p := by
    intro e he
    rw [evolves.isMergeKey_iff]
    rcases List.mem_append.1 (hself ▸ he) with hm | hown
    · exact (ready.offered e hm).not_isMergeKey
    · exact mt ready.evolves.isMergeKey_iff.2 (hdone e hown)
  have grows : ∀ q, ∀ e ∈ g.entries q, e ∈ g'.entries q := by
    intro q e he
    by_cases hq : q = p
    · rw [hq] at he ⊢
      exact hself ▸ List.mem_append_right _ he
    · exact hne q hq ▸ he
  refine ⟨evolves, free, fun q e he => .inl ?_, fun e he => hself ▸ List.mem_append_left _ he,
    fun q => ?_⟩
  · exact Evolves.offers_of_subset ready.evolves evolves grows he
  · by_cases hq : q = p
    · exact .inr (hq ▸ free)
    · exact .inl (hne q hq)

theorem Ready.next {e : Nat × Nat} (ready : Ready g₀ g p index merged)
    (hentry : (g.entries p)[index]? = some e) (hk : ¬ g.IsMergeKey e.1) (evolves : Evolves g₀ g')
    (same : ∀ q, g'.entries q = g.entries q) (mapping : g'.IsMapping p) :
    Ready g₀ g' p (index + 1) merged where
  evolves := evolves
  mapping := mapping
  done f hf := by
    rw [same, List.take_add_one, hentry, List.mem_append] at hf
    rw [evolves.isMergeKey_iff, ← ready.evolves.isMergeKey_iff]
    rcases hf with hf | hf
    · exact ready.done f hf
    · obtain rfl : f = e := by simpa using hf
      exact hk
  offered := ready.offered

theorem Flattened.of_same (h : Flattened g₀ g' g'' p merged) (evolves : Evolves g₀ g)
    (evolves' : Evolves g₀ g') (same : ∀ q, g'.entries q = g.entries q) :
    Flattened g₀ g g'' p merged where
  evolves := h.evolves
  free := h.free
  keeps q e he :=
    h.keeps q e (evolves.offers_of_subset evolves' (fun q _ he => (same q).symm ▸ he) he)
  merged := h.merged
  stays q := (h.stays q).imp (fun hq => hq.trans (same q)) id

/-- Without an entry that asks for others, what was offered is still offered, or a node that the
entry names offers it. -/
theorem offers_or_of_without {ask : Nat × Nat} (evolves : Evolves g g')
    (without : ∀ q, ∀ e ∈ g.entries q, e ∈ g'.entries q ∨ e = ask) (hk : g.IsMergeKey ask.1)
    {q : Nat} {e : Nat × Nat} (he : g.Offers q e) :
    g'.Offers q e ∨ ∃ x, g'.Names ask.2 x ∧ g'.Offers x e := by
  -- The last time that the way to the entry goes over `ask`, the rest of it begins at a node that
  -- `ask` names.
  induction he with
  | own he hown =>
    rcases without _ _ he with hstill | rfl
    · exact .inl (.own hstill (mt evolves.isMergeKey_iff.1 hown))
    · exact absurd hk hown
  | @merged q x f e hf hmerge hname _ ih =>
    rcases ih with hoffers | hother
    · rcases without _ _ hf with hstill | rfl
      · exact .inl (.merged hstill (evolves.isMergeKey_iff.2 hmerge)
          (evolves.names_iff.2 hname) hoffers)
      · exact .inr ⟨x, evolves.names_iff.2 hname, hoffers⟩
    · exact .inr hother

theorem mem_entries_erase_or {ask : Nat × Nat} (hp : g.IsMapping p)
    (hask : (g.entries p)[index]? = some ask) {q : Nat} {e : Nat × Nat} (he : e ∈ g.entries q) :
    e ∈ (g.erase p index).entries q ∨ e = ask := by
  by_cases hq : q = p
  · subst hq
    rw [Graph.erase, entries_refill_self hp, List.mem_eraseIdx_iff_getElem?]
    obtain ⟨i, hi⟩ := List.mem_iff_getElem?.1 he
    by_cases hindex : i = index
    · subst hindex
      exact .inr (Option.some.inj (hi.symm.trans hask))
    · exact .inl ⟨i, hindex, hi⟩
  · rw [Graph.erase, entries_refill_ne hq]
    exact .inl he

theorem evolves_erase (evolves : Evolves g₀ g) (hp : g.IsMapping p) :
    Evolves g₀ (g.erase p index) :=
  evolves.refill hp fun _ he => .inl (List.mem_of_mem_eraseIdx he)

/-- In place of an entry that asks for others, theirs are taken over. -/
theorem Ready.fetched {ask : Nat × Nat} (ready : Ready g₀ g p index merged)
    (hask : (g.entries p)[index]? = some ask) (hk : g.IsMergeKey ask.1)
    (h : Fetched (g.erase p index) g' ask.2 more) : Ready g₀ g' p index (merged ++ more) where
  evolves := (evolves_erase ready.evolves ready.mapping).trans h.evolves
  mapping := by
    rw [h.evolves.isMapping_iff]
    exact ⟨_, content_refill_self ready.mapping⟩
  done e he := by
    rcases h.stays p with same | free
    · have hindex : index ≤ (g.entries p).length :=
        Nat.le_of_lt (List.getElem?_eq_some_iff.1 hask).1
      rw [same, Graph.erase, entries_refill_self ready.mapping, List.eraseIdx_eq_take_drop_succ,
        List.take_left' (List.length_take_of_le hindex)] at he
      rw [h.evolves.isMergeKey_iff, Graph.erase, isMergeKey_refill]
      exact ready.done e he
    · exact free e (List.mem_of_mem_take he)
  offered e he := by
    rcases List.mem_append.1 he with hm | hmore
    · exact ready.offered e hm
    · obtain ⟨q, hq, hoffers⟩ := (h.mem_iff e).1 hmore
      have erased : Evolves g₀ (g.erase p index) := evolves_erase ready.evolves ready.mapping
      have merge := ready.evolves.isMergeKey_iff.1 hk
      exact .merged (ready.evolves.asks _ _ (List.mem_of_getElem? hask) merge) merge
        (erased.names_iff.1 hq) (erased.offers hoffers)

theorem Flattened.of_fetched {ask : Nat × Nat} (ready : Ready g₀ g p index merged)
    (hask : (g.entries p)[index]? = some ask) (hk : g.IsMergeKey ask.1)
    (h : Fetched (g.erase p index) g' ask.2 more) (h' : Flattened g₀ g' g'' p (merged ++ more)) :
    Flattened g₀ g g'' p merged where
  evolves := h'.evolves
  free := h'.free
  keeps q e he := by
    have taken {e : Nat × Nat} (hmore : e ∈ more) : e ∈ g''.entries p :=
      h'.merged e (List.mem_append_right _ hmore)
    rcases offers_or_of_without (evolves_erase (.refl g) ready.mapping)
      (fun q e => mem_entries_erase_or ready.mapping hask) hk he with hoffers | hnamed
    · rcases h.keeps q e hoffers with hoffers' | hmore
      · exact h'.keeps q e hoffers'
      · exact .inr (taken hmore)
    · exact .inr (taken ((h.mem_iff e).2 hnamed))
  merged e he := h'.merged e (List.mem_append_left _ he)
  stays q := by
    by_cases hq : q = p
    · exact .inr (hq ▸ h'.free)
    · have evolves : Evolves g₀ g' := (ready.fetched hask hk h).evolves
      exact (h.stays.trans h'.stays evolves h'.evolves q).imp
        (fun same => same.trans (entries_refill_ne hq)) id

end

/-! ### The program -/

/-- The text is no document. -/
def Error.IsMalformed (e : Error) : Prop := ∃ f, e = .malformed f

namespace Builder

section

variable {b : Builder} {p : Nat} {fault : Error → Prop}

/-- The state with another graph. -/
def withNodes (b : Builder) (g : Graph) : Builder := { b with nodes := g }

@[simp] theorem meets_nodeAt {post : Node → Builder → Prop} :
    Meets (nodeAt p) b post fault ↔ post (b.nodes.nodeAt p) b := .rfl

@[simp] theorem meets_fill {c : Content} {post : Unit → Builder → Prop} :
    Meets (fill p c) b post fault ↔ post () (b.withNodes (b.nodes.refill p c)) := .rfl

@[simp] theorem meets_retag {t : String} {post : Unit → Builder → Prop} :
    Meets (retag p t) b post fault ↔ post () (b.withNodes (b.nodes.retag p t)) := .rfl

@[simp] theorem meets_fail {α : Type} {f : Fault} {post : α → Builder → Prop} :
    Meets (fail f) b post fault ↔ fault (.malformed f) := .rfl

end

/-- What the three parts of flattening do with some fuel. -/
structure Flattens (fuel : Nat) : Prop where
  one : ∀ p (b : Builder), b.nodes.IsMapping p → Meets (flatten fuel p) b
    (fun _ b' => ∃ g, b' = b.withNodes g ∧ Flattened b.nodes b.nodes g p []) Error.IsMalformed
  rest : ∀ g₀ p index merged (b : Builder), Ready g₀ b.nodes p index merged →
    Meets (flattenFrom fuel p index merged) b
      (fun _ b' => ∃ g, b' = b.withNodes g ∧ Flattened g₀ b.nodes g p merged) Error.IsMalformed
  all : ∀ items merged (b : Builder), Meets (flattenAll fuel items merged) b
    (fun result b' => ∃ g, b' = b.withNodes g ∧ Gathered b.nodes g items merged result)
      Error.IsMalformed

theorem flatten_succ {fuel p : Nat} {b : Builder} (h : Flattens fuel) (hp : b.nodes.IsMapping p) :
    Meets (flatten (fuel + 1) p) b
      (fun _ b' => ∃ g, b' = b.withNodes g ∧ Flattened b.nodes b.nodes g p [])
        Error.IsMalformed := by
  rw [flatten]
  exact h.rest _ p 0 [] b ⟨.refl _, hp, by simp, by simp⟩

theorem flattenAll_succ {fuel : Nat} {items : List Nat} {merged : List (Nat × Nat)} {b : Builder}
    (h : Flattens fuel) : Meets (flattenAll (fuel + 1) items merged) b
      (fun result b' => ∃ g, b' = b.withNodes g ∧ Gathered b.nodes g items merged result)
        Error.IsMalformed := by
  cases items with
  | nil => exact ⟨b.nodes, rfl, .nil⟩
  | cons item more =>
    rw [flattenAll]
    simp only [Meets.bind_iff, meets_nodeAt]
    split
    · next es hes =>
      simp only [Meets.bind_iff, meets_nodeAt]
      refine (h.one item b ⟨es, hes⟩).mono ?_ fun _ => id
      rintro - - ⟨g, rfl, hg⟩
      refine (h.all more _ (b.withNodes g)).mono ?_ fun _ => id
      rintro result - ⟨g', rfl, hg'⟩
      exact ⟨g', rfl, .cons hg hg'⟩
    · exact ⟨_, rfl⟩

theorem flattenFrom_succ {fuel p index : Nat} {g₀ : Graph} {merged : List (Nat × Nat)} {b : Builder}
    (h : Flattens fuel) (ready : Ready g₀ b.nodes p index merged) :
    Meets (flattenFrom (fuel + 1) p index merged) b
      (fun _ b' => ∃ g, b' = b.withNodes g ∧ Flattened g₀ b.nodes g p merged)
        Error.IsMalformed := by
  rw [flattenFrom]
  simp only [Meets.bind_iff, meets_nodeAt]
  split
  · next hend =>
    split
    · refine ⟨_, rfl, ready.flattened hend ?_ (entries_refill_self ready.mapping) fun q hq =>
        entries_refill_ne hq⟩
      exact ready.evolves.refill ready.mapping fun e he =>
        (List.mem_append.1 he).symm.imp id (ready.offered e)
    · next hmerged =>
      obtain rfl : merged = [] := by simpa using hmerged
      exact ⟨b.nodes, rfl, ready.flattened hend ready.evolves rfl fun _ _ => rfl⟩
  · next k v hentry =>
    simp only [Meets.bind_iff, meets_nodeAt]
    split
    · next hk =>
      have taken {g : Graph} {more : List (Nat × Nat)}
          (hg : Fetched (b.nodes.erase p index) g v more) :
          Meets (flattenFrom fuel p index (merged ++ more)) (b.withNodes g)
            (fun _ b' => ∃ g', b' = b.withNodes g' ∧ Flattened g₀ b.nodes g' p merged)
              Error.IsMalformed := by
        refine (h.rest g₀ p index _ (b.withNodes g) (ready.fetched hentry hk hg)).mono ?_
          fun _ => id
        rintro - - ⟨g', rfl, hg'⟩
        exact ⟨g', rfl, .of_fetched ready hentry hk hg hg'⟩
      simp only [Meets.bind_iff, meets_fill, meets_nodeAt]
      split
      · next es hes =>
        simp only [Meets.bind_iff, meets_nodeAt, Meets.pure_iff]
        refine (h.one v _ ⟨es, hes⟩).mono ?_ fun _ => id
        rintro - - ⟨g, rfl, hg⟩
        exact taken (.of_flattened ⟨es, hes⟩ hg)
      · next items hitems =>
        simp only [Meets.bind_iff]
        refine (h.all items [] _).mono ?_ fun _ => id
        rintro more - ⟨g, rfl, hg⟩
        exact taken (.of_gathered hitems hg)
      · exact ⟨_, rfl⟩
    · next hk =>
      have passed {g : Graph} (evolves : Evolves g₀ g) (same : ∀ q, g.entries q = b.nodes.entries q)
          (mapping : g.IsMapping p) : Meets (flattenFrom fuel p (index + 1) merged) (b.withNodes g)
            (fun _ b' => ∃ g', b' = b.withNodes g' ∧ Flattened g₀ b.nodes g' p merged)
              Error.IsMalformed := by
        refine (h.rest g₀ p _ merged (b.withNodes g)
          (ready.next hentry hk evolves same mapping)).mono ?_ fun _ => id
        rintro - - ⟨g', rfl, hg'⟩
        exact ⟨g', rfl, hg'.of_same ready.evolves evolves same⟩
      split
      · next hvalue =>
        simp only [Meets.bind_iff, meets_retag]
        exact passed (ready.evolves.retag hvalue) (fun _ => entries_retag)
          (by simpa [IsMapping] using ready.mapping)
      · exact passed ready.evolves (fun _ => rfl) ready.mapping

theorem flattens (fuel : Nat) : Flattens fuel := by
  induction fuel with
  | zero =>
    refine ⟨fun p b _ => ?_, fun g₀ p index merged b _ => ?_, fun items merged b => ?_⟩
    · rw [flatten]
      exact ⟨_, rfl⟩
    · rw [flattenFrom]
      exact ⟨_, rfl⟩
    · rw [flattenAll]
      exact ⟨_, rfl⟩
  | succ fuel ih =>
    exact ⟨fun p b => flatten_succ ih, fun g₀ p index merged b => flattenFrom_succ ih,
      fun items merged b => flattenAll_succ ih⟩

end Builder

end ActionItems.Yaml

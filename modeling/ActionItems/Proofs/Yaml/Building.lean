import Mathlib.Logic.Relation
import ActionItems.Proofs.Except
import ActionItems.Proofs.Yaml.Merging

/-!
# Which nodes of a document are read

The nodes that a document holds are those that its root leads to (`Graph.Holds`): the items of its
sequences, and the keys and values of its mappings, entries of merged mappings included. A document
has a value only if each scalar that it holds can be read, wherever it stands (`readable_of_value`),
and if it has none although its form is right, one of them is why (`fails_of_value`).

Collections are looked into one after the other, so `Tracks` says of the state in between which
nodes were seen and which of those that a node offers may still be lost.
-/

namespace ActionItems.Yaml

open Builder

namespace Graph

/-- A node that a collection holds. -/
inductive Child (g : Graph) (p q : Nat) : Prop
  | item {items : List Nat} :
    g.tag p = standardTag "seq" → g.content p = .sequence items → q ∈ items → Child g p q
  | entry {e : Nat × Nat} : g.tag p = standardTag "map" ∨ g.tag p = standardTag "set" →
    g.Offers p e →
      q = e.1 ∨ q = e.2 → Child g p q
  | pair {items : List Nat} {item : Nat} {e : Nat × Nat} :
      g.tag p = standardTag "omap" ∨ g.tag p = standardTag "pairs" → g.content p = .sequence items →
        item ∈ items →
      g.Offers item e → q = e.1 ∨ q = e.2 → Child g p q

/-- The nodes that a document holds, from its root. -/
def Holds (g : Graph) : Nat → Nat → Prop := Relation.ReflTransGen g.Child

theorem Holds.child {g : Graph} {root p q : Nat} (h : g.Holds root p) (hq : g.Child p q) :
    g.Holds root q :=
  Relation.ReflTransGen.tail h hq

/-- A text that a node may stand for as a scalar: its own, or that of the value of an entry with the
key `=`. -/
inductive Stands (g : Graph) : Nat → List Nat → Prop
  | scalar {p : Nat} {t : List Nat} : g.content p = .scalar t → Stands g p t
  | value {p : Nat} {e : Nat × Nat} {t : List Nat} :
      g.Offers p e → g.tag e.1 = standardTag "value" → Stands g e.2 t → Stands g p t

/-- Whether a node is a scalar. -/
def isScalar (g : Graph) (p : Nat) : Bool :=
  match g.content p with
  | .scalar _ => true
  | _ => false

/-- A text that a node stands for is not a value of its tag, for the reason `e`. -/
def Unreadable (g : Graph) (p : Nat) (e : Error) : Prop :=
  ∃ t, g.Stands p t ∧ scalarValue? (tagName (g.tag p)) (g.isScalar p) t = some (.error e)

/-- A scalar whose own text is not a value of its tag, for the reason `e`. -/
def Broken (g : Graph) (p : Nat) (e : Error) : Prop :=
  ∃ t, g.content p = .scalar t ∧ scalarValue? (tagName (g.tag p)) true t = some (.error e)

/-- Nothing keeps a node from having a value of its own. -/
structure Readable (g : Graph) (p : Nat) : Prop where
  not_isMergeKey : ¬ g.IsMergeKey p
  not_broken : ∀ e, ¬ g.Broken p e

end Graph

/-- Why a document has no value: its form is wrong, or a scalar that it holds cannot be read. -/
def Fails (g : Graph) (root : Nat) (e : Error) : Prop :=
  e.IsMalformed ∨ ∃ p, g.Holds root p ∧ g.Unreadable p e

@[simp] theorem tagName_standardTag (name : String) : tagName (standardTag name) = name := by
  have hprefix : tagBase.toList.isPrefixOf (tagBase.toList ++ name.toList) = true := by
    rw [List.isPrefixOf_iff_prefix]
    exact List.prefix_append _ _
  simp only [tagName, standardTag, String.toList_append, hprefix, if_true]
  rw [List.drop_left' String.length_toList, String.ofList_toList]

namespace Evolves

variable {g g' : Graph} {p : Nat}

theorem tag_eq (h : Evolves g g') (hp : g'.tag p ≠ standardTag "str") : g'.tag p = g.tag p :=
  (h.tag p).elim id fun both => absurd both.2 hp

theorem stands (h : Evolves g g') {t : List Nat} (ht : g'.Stands p t) : g.Stands p t := by
  induction ht with
  | scalar hc => exact .scalar (h.content_eq_scalar_iff.1 hc)
  | value he hk _ ih =>
    refine .value (h.offers he) ?_ ih
    rw [← hk, h.tag_eq (by rw [hk]; decide)]

theorem isScalar_eq (h : Evolves g g') : g'.isScalar p = g.isScalar p := by
  unfold Graph.isScalar
  rcases h.content p with same | ⟨⟨es, hes⟩, es', hes'⟩
  · rw [same]
  · rw [hes, hes']

theorem unreadable (h : Evolves g g') {e : Error} (he : g'.Unreadable p e) : g.Unreadable p e := by
  obtain ⟨t, ht, hvalue⟩ := he
  refine ⟨t, h.stands ht, ?_⟩
  rw [← h.isScalar_eq, ← h.tag_eq, hvalue]
  intro hstr
  simp [hstr, scalarValue?] at hvalue

end Evolves

/-! ### Plans -/

theorem isCollectionTag_iff {t : String} : isCollectionTag t = true ↔
    t = standardTag "seq" ∨ (t = standardTag "map" ∨ t = standardTag "set") ∨
      t = standardTag "omap" ∨ t = standardTag "pairs" := by
  simp only [isCollectionTag, List.any_cons, List.any_nil, Bool.or_eq_true, beq_iff_eq,
    Bool.false_eq_true, or_false, @eq_comm _ _ t, or_assoc]

theorem scalarValue?_of_isCollectionTag {t : String} (h : isCollectionTag t) (direct : Bool)
    (text : List Nat) : scalarValue? (tagName t) direct text = none := by
  rcases isCollectionTag_iff.1 h with rfl | (rfl | rfl) | rfl | rfl <;> simp [scalarValue?]

/-- Whether nothing is known. -/
def Plan.isUnknown : Plan → Bool
  | .unknown => true
  | _ => false

theorem Plan.isUnknown_eq_true_iff {x : Plan} : x.isUnknown = true ↔ x = .unknown := by
  cases x <;> simp [isUnknown]

theorem Graph.Child.isCollectionTag {g : Graph} {p q : Nat} (h : g.Child p q) :
    isCollectionTag (g.tag p) = true := by
  rw [isCollectionTag_iff]
  cases h with
  | item htag _ _ => exact .inl htag
  | entry htag _ _ => exact .inr (.inl htag)
  | pair htag _ _ _ _ => exact .inr (.inr htag)

section Children

variable {g : Graph} {p q : Nat} {items : List Nat}

theorem Graph.Child.of_sequence (h : g.Child p q) (htag : g.tag p = standardTag "seq")
    (hcontent : g.content p = .sequence items) : q ∈ items := by
  cases h with
  | item _ hcontent' hq =>
    rw [hcontent] at hcontent'
    cases hcontent'
    exact hq
  | entry hmap _ _ => exact absurd hmap (by rw [htag]; decide)
  | pair hpairs _ _ _ _ => exact absurd hpairs (by rw [htag]; decide)

theorem Graph.Child.of_mapping (h : g.Child p q)
    (htag : g.tag p = standardTag "map" ∨ g.tag p = standardTag "set") :
    ∃ e, g.Offers p e ∧ (q = e.1 ∨ q = e.2) := by
  cases h with
  | item hseq _ _ => exact absurd hseq (by rcases htag with h | h <;> rw [h] <;> decide)
  | entry _ he hq => exact ⟨_, he, hq⟩
  | pair hpairs _ _ _ _ => exact absurd hpairs (by rcases htag with h | h <;> rw [h] <;> decide)

theorem Graph.Child.of_pairs (h : g.Child p q)
    (htag : g.tag p = standardTag "omap" ∨ g.tag p = standardTag "pairs")
    (hcontent : g.content p = .sequence items) :
    ∃ item ∈ items, ∃ e, g.Offers item e ∧ (q = e.1 ∨ q = e.2) := by
  cases h with
  | item hseq _ _ => exact absurd hseq (by rcases htag with h | h <;> rw [h] <;> decide)
  | entry hmap _ _ => exact absurd hmap (by rcases htag with h | h <;> rw [h] <;> decide)
  | pair _ hcontent' hitem he hq =>
    rw [hcontent] at hcontent'
    cases hcontent'
    exact ⟨_, hitem, _, he, hq⟩

end Children

theorem Evolves.isCollectionTag_iff {g g' : Graph} {p : Nat} (h : Evolves g g') :
    isCollectionTag (g'.tag p) = true ↔ isCollectionTag (g.tag p) = true := by
  rcases h.tag p with same | ⟨before, after⟩
  · rw [same]
  · rw [before, after]
    decide

theorem readable_of_isCollectionTag {g : Graph} {p : Nat} (h : isCollectionTag (g.tag p) = true) :
    g.Readable p := by
  refine ⟨fun hmerge => ?_, fun e => ?_⟩
  · rw [hmerge] at h
    exact absurd h (by decide)
  · rintro ⟨t, -, he⟩
    simp [scalarValue?_of_isCollectionTag h] at he

theorem Graph.Stands.eq_of_scalar {g : Graph} {p : Nat} {t t' : List Nat} (h : g.Stands p t)
    (hp : g.content p = .scalar t') : t = t' := by
  cases h with
  | scalar hc => simpa [hp] using hc.symm
  | value he _ _ =>
    obtain ⟨es, hes⟩ := he.isMapping
    simp [hp] at hes

theorem Evolves.readable {g g' : Graph} {p : Nat} (h : Evolves g g') {t : List Nat} {v : Value}
    (ht : g'.Stands p t) (hv : scalarValue? (tagName (g'.tag p)) (g'.isScalar p) t = some (.ok v)) :
    g.Readable p := by
  refine ⟨fun hmerge => ?_, fun e => ?_⟩
  · rw [h.isMergeKey_iff.2 hmerge] at hv
    simp [scalarValue?] at hv
  · rintro ⟨t', ht', he⟩
    have hscalar := h.content_eq_scalar_iff.2 ht'
    obtain rfl := ht.eq_of_scalar hscalar
    rcases h.tag p with same | ⟨before, -⟩
    · have : g'.isScalar p = true := by simp [Graph.isScalar, hscalar]
      rw [same, this, he] at hv
      cases hv
    · simp [before, scalarValue?] at he

theorem eq_standardTag_of_isCollectionTag {t name : String} (h : isCollectionTag t = true)
    (hname : tagName t = name) : t = standardTag name := by
  subst hname
  rcases isCollectionTag_iff.1 h with rfl | (rfl | rfl) | rfl | rfl <;> simp

namespace Builder

/-- What is known of the value of a node. -/
def planAt (b : Builder) (p : Nat) : Plan := b.plans.getD p .unknown

/-- Whether something is known of the value of a node. -/
def Seen (b : Builder) (p : Nat) : Prop := b.planAt p ≠ .unknown

/-- Whether a node is a collection that was not looked into yet. -/
def Waits (b : Builder) (p : Nat) : Prop := b.planAt p = .waiting

/-- The number of nodes that are still to be visited or to be looked into. -/
def work (b : Builder) : Nat := b.plans.countP Plan.isUnknown + b.queue.length

/-- The state with a plan for a node. -/
def withPlan (b : Builder) (p : Nat) (x : Plan) : Builder :=
  { b with plans := b.plans.setIfInBounds p x }

/-- The state with a collection put off. -/
def putOff (b : Builder) (p : Nat) : Builder :=
  { b.withPlan p .waiting with queue := b.queue ++ [p] }

section

variable {b b' b'' : Builder} {p q : Nat} {x : Plan}

theorem planAt_withPlan_ne (h : q ≠ p) : (b.withPlan p x).planAt q = b.planAt q := by
  simp [planAt, withPlan, Array.getD_eq_getD_getElem?, h.symm]

theorem planAt_withPlan_self (h : p < b.plans.size) : (b.withPlan p x).planAt p = x := by
  simp [planAt, withPlan, Array.getD_eq_getD_getElem?, h]

theorem countP_withPlan (hp : p < b.plans.size) (hx : x ≠ .unknown) :
    (b.withPlan p x).plans.countP Plan.isUnknown =
      b.plans.countP Plan.isUnknown - if b.plans[p].isUnknown then 1 else 0 := by
  have hx' : x.isUnknown = false := by simpa [← Plan.isUnknown_eq_true_iff] using hx
  simp [withPlan, Array.setIfInBounds_def, hp, Array.countP_set, hx']

theorem work_withPlan_le (hp : p < b.plans.size) (hx : x ≠ .unknown) :
    (b.withPlan p x).work ≤ b.work := by
  have := countP_withPlan hp hx
  simp only [work, withPlan] at this ⊢
  omega

theorem work_putOff_le (hp : p < b.plans.size) (hunknown : b.planAt p = .unknown) :
    (b.putOff p).work ≤ b.work := by
  have hplan : b.plans[p] = .unknown := by
    simpa [planAt, Array.getD_eq_getD_getElem?, hp] using hunknown
  have hpos : 0 < b.plans.countP Plan.isUnknown :=
    Array.countP_pos_iff.2 ⟨_, Array.getElem_mem hp, Plan.isUnknown_eq_true_iff.2 hplan⟩
  have := countP_withPlan (x := .waiting) hp (by simp)
  simp only [hplan, Plan.isUnknown, if_true] at this
  simp only [work, putOff, withPlan, List.length_append, List.length_singleton] at this ⊢
  omega

/-- From `b` to `b'` nothing is forgotten, and nothing is left to do that was not before. -/
structure Grows (b b' : Builder) : Prop where
  nodes : b'.nodes = b.nodes
  seen : ∀ p, b.Seen p → b'.Seen p
  work : b'.work ≤ b.work

theorem Grows.refl (b : Builder) : Grows b b := ⟨rfl, fun _ => id, Nat.le_refl _⟩

theorem Grows.trans (h : Grows b b') (h' : Grows b' b'') : Grows b b'' :=
  ⟨h'.nodes.trans h.nodes, fun p => h'.seen p ∘ h.seen p, Nat.le_trans h'.work h.work⟩

/-- From `b` to `b'` one node is given a plan, and perhaps put off. -/
structure Plans (b b' : Builder) (p : Nat) : Prop where
  nodes : b'.nodes = b.nodes
  size : b'.plans.size = b.plans.size
  others : ∀ q, q ≠ p → b'.planAt q = b.planAt q
  self : b'.Seen p
  queue : ∀ q ∈ b.queue, q ∈ b'.queue
  work : b'.work ≤ b.work

theorem plans_withPlan (hp : p < b.plans.size) (hx : x ≠ .unknown) :
    Plans b (b.withPlan p x) p where
  nodes := rfl
  size := by simp [withPlan]
  others _ := planAt_withPlan_ne
  self := by rwa [Seen, planAt_withPlan_self hp]
  queue _ := id
  work := work_withPlan_le hp hx

theorem plans_putOff (hp : p < b.plans.size) (hunknown : b.planAt p = .unknown) :
    Plans b (b.putOff p) p where
  nodes := rfl
  size := by simp [putOff, withPlan]
  others _ hq := planAt_withPlan_ne hq
  self := by
    rw [Seen, show (b.putOff p).planAt p = .waiting from planAt_withPlan_self hp]
    simp
  queue _ hq := List.mem_append_left _ hq
  work := work_putOff_le hp hunknown

theorem Plans.seen_iff (h : Plans b b' p) (hq : q ≠ p) : b'.Seen q ↔ b.Seen q := by
  rw [Seen, h.others q hq, Seen]

theorem Plans.waits_iff (h : Plans b b' p) (hq : q ≠ p) : b'.Waits q ↔ b.Waits q := by
  rw [Waits, h.others q hq, Waits]

theorem Plans.grows (h : Plans b b' p) : Grows b b' := by
  refine ⟨h.nodes, fun q hq => ?_, h.work⟩
  by_cases hqp : q = p
  · exact hqp ▸ h.self
  · exact (h.seen_iff hqp).2 hq

end

/-- What holds between two steps from a root. The collections `now` are being looked into, and the
entries `lost` may have been lost by the nodes that offered them. -/
structure Tracks (g : Graph) (root : Nat) (now : List Nat) (lost : List (Nat × Nat))
    (b : Builder) : Prop where
  size : b.plans.size = b.nodes.size
  evolves : Evolves g b.nodes
  held : ∀ p, b.Seen p → g.Holds root p
  readable : ∀ p, b.Seen p → g.Readable p
  queued : ∀ p ∈ b.queue, b.Seen p ∧ isCollectionTag (g.tag p) = true
  waits : ∀ p, b.Waits p → p ∈ now ∨ p ∈ b.queue
  opened : ∀ p, b.Seen p → ¬ b.Waits p → ∀ q, g.Child p q → b.Seen q
  keeps : ∀ p e, g.Offers p e → b.nodes.Offers p e ∨ (b.Seen e.1 ∧ b.Seen e.2) ∨ e ∈ lost

section

variable {g : Graph} {root p : Nat} {now now' : List Nat} {lost : List (Nat × Nat)}
  {b b' : Builder} {x : Plan}

theorem Tracks.plans (h : Tracks g root now lost b) (hb : Plans b b' p) (held : g.Holds root p)
    (readable : g.Readable p)
    (queued : ∀ q ∈ b'.queue, q ∈ b.queue ∨ q = p ∧ isCollectionTag (g.tag p) = true)
    (waits : b'.Waits p → p ∈ now' ∨ p ∈ b'.queue)
    (opened : ¬ b'.Waits p → ∀ q, g.Child p q → b.Seen q) (rest : ∀ q ∈ now, q ≠ p → q ∈ now') :
    Tracks g root now' lost b' where
  size := by rw [hb.size, hb.nodes, h.size]
  evolves := hb.nodes ▸ h.evolves
  held q hq := by
    by_cases hqp : q = p
    · exact hqp ▸ held
    · exact h.held q ((hb.seen_iff hqp).1 hq)
  readable q hq := by
    by_cases hqp : q = p
    · exact hqp ▸ readable
    · exact h.readable q ((hb.seen_iff hqp).1 hq)
  queued q hq := by
    rcases queued q hq with hold | ⟨rfl, htag⟩
    · exact (h.queued q hold).imp (hb.grows.seen q) id
    · exact ⟨hb.self, htag⟩
  waits q hq := by
    by_cases hqp : q = p
    · exact hqp ▸ waits (hqp ▸ hq)
    · exact (h.waits q ((hb.waits_iff hqp).1 hq)).imp (fun hnow => rest q hnow hqp) (hb.queue q)
  opened q hq hw child hchild := by
    by_cases hqp : q = p
    · exact hb.grows.seen _ (opened (hqp ▸ hw) _ (hqp ▸ hchild))
    · exact hb.grows.seen _ (h.opened q ((hb.seen_iff hqp).1 hq) (mt (hb.waits_iff hqp).2 hw)
        child hchild)
  keeps q e he := by
    rw [hb.nodes]
    exact (h.keeps q e he).imp id (Or.imp (And.imp (hb.grows.seen _) (hb.grows.seen _)) id)

/-! ### Visiting -/

@[simp] theorem meets_plan {fault : Error → Prop} {post : Unit → Builder → Prop} :
    Meets (plan p x) b post fault ↔ post () (b.withPlan p x) := .rfl

theorem meets_scalarText (fuel : Nat) : ∀ p, Meets (scalarText fuel p) b
    (fun t b' => b' = b ∧ b.nodes.Stands p t) Error.IsMalformed := by
  induction fuel with
  | zero =>
    intro p
    rw [scalarText]
    exact ⟨_, rfl⟩
  | succ fuel ih =>
    intro p
    rw [scalarText]
    simp only [Meets.bind_iff, meets_nodeAt]
    split
    · next t ht => exact ⟨rfl, .scalar ht⟩
    · exact ⟨_, rfl⟩
    · next es hes =>
      simp only [Meets.bind_iff]
      rw [Meets.filterM_iff fun e => decide (b.nodes.tag e.1 = standardTag "value")]
      · split
        · next k v more htagged =>
          have hmem : (k, v) ∈ es.filter fun e =>
              decide (b.nodes.tag e.1 = standardTag "value") := by
            rw [htagged]
            exact List.mem_cons_self
          obtain ⟨hentry, hk⟩ := List.mem_filter.1 hmem
          have hvalue : b.nodes.tag k = standardTag "value" := by simpa using hk
          refine (ih v).mono (fun t b' => ?_) fun _ => id
          rintro ⟨rfl, ht⟩
          have hown : (k, v) ∈ b'.nodes.entries p := by rwa [Graph.entries, Graph.content, hes]
          refine ⟨rfl, .value (.own hown ?_) hvalue ht⟩
          rw [Graph.IsMergeKey, hvalue]
          decide
        · exact ⟨_, rfl⟩
      · intro e post fault
        exact .rfl

theorem Tracks.putOff (h : Tracks g root now lost b) (hp : g.Holds root p)
    (hunknown : b.planAt p = .unknown) (htag : isCollectionTag (b.nodes.tag p) = true) :
    Tracks g root now lost (b.putOff p) ∧ Grows b (b.putOff p) ∧ (b.putOff p).Seen p := by
  have hcollection : isCollectionTag (g.tag p) = true := h.evolves.isCollectionTag_iff.1 htag
  have hsize : p < b.plans.size := h.size ▸ Graph.lt_size_of_tag_ne fun hempty => by
    rw [hempty] at htag
    exact absurd htag (by decide)
  have hplans := plans_putOff hsize hunknown
  refine ⟨h.plans hplans hp (readable_of_isCollectionTag hcollection) ?_ ?_ ?_ fun q hq _ => hq,
    hplans.grows, hplans.self⟩
  · intro q hq
    exact (List.mem_append.1 hq).imp id fun hself => ⟨List.mem_singleton.1 hself, hcollection⟩
  · exact fun _ => .inr (List.mem_append_right _ (List.mem_singleton_self p))
  · exact fun hwaits => absurd (planAt_withPlan_self hsize) hwaits

theorem Tracks.withScalar {t : List Nat} {v : Value} (h : Tracks g root now lost b)
    (hp : g.Holds root p) (htag : ¬ isCollectionTag (b.nodes.tag p) = true)
    (ht : b.nodes.Stands p t)
    (hv : scalarValue? (tagName (b.nodes.tag p)) (b.nodes.isScalar p) t = some (.ok v)) :
    Tracks g root now lost (b.withPlan p (.scalar v)) ∧ Grows b (b.withPlan p (.scalar v)) ∧
      (b.withPlan p (.scalar v)).Seen p := by
  have hsize : p < b.plans.size := h.size ▸ Graph.lt_size_of_tag_ne fun hempty => by
    rw [hempty] at hv
    cases hv
  have hplans := plans_withPlan (x := .scalar v) hsize (by simp)
  refine ⟨h.plans hplans hp (h.evolves.readable ht hv) (fun q => .inl) ?_ ?_ fun q hq _ => hq,
    hplans.grows, hplans.self⟩
  · intro hwaits
    rw [Waits, planAt_withPlan_self hsize] at hwaits
    cases hwaits
  · exact fun _ q hchild => absurd (h.evolves.isCollectionTag_iff.2 hchild.isCollectionTag) htag

/-- **A node that is visited is seen then, or it is why the document has no value.** -/
theorem meets_visit (h : Tracks g root now lost b) (hp : g.Holds root p) : Meets (visit p) b
    (fun _ b' => Tracks g root now lost b' ∧ Grows b b' ∧ b'.Seen p) (Fails g root) := by
  rw [visit]
  simp only [Meets.bind_iff, Meets.get_iff]
  split
  · next hunknown =>
    simp only [Meets.bind_iff, meets_nodeAt]
    split
    · next htag =>
      rw [Meets.bind_iff, meets_plan, Meets.modify_iff]
      exact h.putOff hp hunknown htag
    · next htag =>
      split
      · simp only [Meets.bind_iff, meets_fail]
        exact .inl ⟨_, rfl⟩
      · simp only [Meets.bind_iff]
        refine (meets_scalarText _ p).mono ?_ fun _ => .inl
        rintro t b' ⟨rfl, ht⟩
        split
        · next v hv =>
          rw [meets_plan]
          exact h.withScalar hp htag ht hv
        · next e he =>
          rw [Meets.throw_iff]
          exact .inr ⟨p, hp, h.evolves.unreadable ⟨t, ht, he⟩⟩
        · exact .inl ⟨_, rfl⟩
  · next hknown => exact ⟨h, .refl _, hknown⟩

/-- A key that asks for the entries of others is no value. -/
theorem meets_visit_of_isMergeKey (h : Tracks g root now lost b) (hp : g.IsMergeKey p) :
    Meets (visit p) b (fun _ _ => False) (Fails g root) := by
  have htag : b.nodes.tag p = standardTag "merge" := h.evolves.isMergeKey_iff.2 hp
  rw [visit]
  simp only [Meets.bind_iff, Meets.get_iff]
  split
  · simp only [Meets.bind_iff, meets_nodeAt,
      show (b.nodes.nodeAt p).tag = standardTag "merge" from htag]
    rw [if_neg (by decide), if_pos (by simp [scalarValue?])]
    exact .inl ⟨_, rfl⟩
  · next hknown => exact absurd hp (h.readable p hknown).not_isMergeKey

theorem meets_visitItems {items : List Nat} (h : Tracks g root now lost b)
    (hitems : ∀ q ∈ items, g.Holds root q) : Meets (forIn items PUnit.unit fun item _ => do
        visit item
        pure (ForInStep.yield PUnit.unit)) b
      (fun _ b' => Tracks g root now lost b' ∧ Grows b b' ∧ ∀ q ∈ items, b'.Seen q)
        (Fails g root) := by
  induction items generalizing b with
  | nil => exact ⟨h, .refl b, by simp⟩
  | cons item items ih =>
    obtain ⟨hitem, hmore⟩ := List.forall_mem_cons.1 hitems
    rw [List.forIn_cons]
    simp only [Meets.bind_iff, Meets.pure_iff]
    refine (meets_visit h hitem).mono ?_ fun _ => id
    rintro - b' ⟨h', grows, hseen⟩
    refine (ih h' hmore).mono ?_ fun _ => id
    rintro - b'' ⟨h'', grows', hseen'⟩
    exact ⟨h'', grows.trans grows', List.forall_mem_cons.2 ⟨grows'.seen _ hseen, hseen'⟩⟩

theorem meets_isCollection {post : Bool → Builder → Prop} {fault : Error → Prop}
    (h : ∀ r, post r b) : Meets (isCollection p) b post fault := by
  rw [isCollection]
  simp only [Meets.bind_iff, Meets.get_iff]
  split <;> exact h _

theorem meets_visitEntries {es : List (Nat × Nat)} (h : Tracks g root now lost b)
    (hes : ∀ e ∈ es, g.Holds root e.1 ∧ g.Holds root e.2) : Meets (visitEntries es) b
      (fun _ b' => Tracks g root now lost b' ∧ Grows b b' ∧ ∀ e ∈ es, b'.Seen e.1 ∧ b'.Seen e.2)
        (Fails g root) := by
  induction es generalizing b with
  | nil =>
    rw [visitEntries]
    exact ⟨h, .refl b, by simp⟩
  | cons e es ih =>
    obtain ⟨⟨hk, hv⟩, hmore⟩ := List.forall_mem_cons.1 hes
    rw [visitEntries]
    simp only [Meets.bind_iff]
    refine (meets_visit h hk).mono ?_ fun _ => id
    rintro - b₁ ⟨h₁, grows₁, hseen₁⟩
    refine meets_isCollection fun r => ?_
    split
    · simp only [Meets.bind_iff, meets_fail]
      exact .inl ⟨_, rfl⟩
    · simp only [Meets.bind_iff]
      refine (meets_visit h₁ hv).mono ?_ fun _ => id
      rintro - b₂ ⟨h₂, grows₂, hseen₂⟩
      refine (ih h₂ hmore).mono ?_ fun _ => id
      rintro - b₃ ⟨h₃, grows₃, hseen₃⟩
      exact ⟨h₃, (grows₁.trans grows₂).trans grows₃,
        List.forall_mem_cons.2 ⟨⟨grows₃.seen _ (grows₂.seen _ hseen₁), grows₃.seen _ hseen₂⟩,
          hseen₃⟩⟩

/-! ### Looking into collections -/

/-- From `b` to `b'` all that the collection at `p` holds was visited. -/
structure Opens (g : Graph) (root p : Nat) (b b' : Builder) : Prop where
  tracks : Tracks g root [p] [] b'
  seen : ∀ q, b.Seen q → b'.Seen q
  work : b'.work ≤ b.work
  children : ∀ q, g.Child p q → b'.Seen q

/-- The mapping that was flattened may have taken entries from others, and they are lost unless it
is visited. -/
theorem Tracks.flattened {g' : Graph} (h : Tracks g root now [] b)
    (hg : Flattened b.nodes b.nodes g' p []) :
    Tracks g root now (g'.entries p) (b.withNodes g') where
  size := h.size.trans hg.evolves.size.symm
  evolves := h.evolves.trans hg.evolves
  held := h.held
  readable := h.readable
  queued := h.queued
  waits := h.waits
  opened := h.opened
  keeps q e he := by
    rcases h.keeps q e he with hoffers | hseen | hnil
    · exact (hg.keeps q e hoffers).imp id .inr
    · exact .inr (.inl hseen)
    · cases hnil

theorem Tracks.recovered (h : Tracks g root now lost b)
    (hlost : ∀ e ∈ lost, b.Seen e.1 ∧ b.Seen e.2) : Tracks g root now [] b :=
  { h with
    keeps := fun q e he => (h.keeps q e he).imp id fun hrest => .inl (hrest.elim id (hlost e)) }

theorem meets_mappingEntries (h : Tracks g root [p] [] b) (hp : g.Holds root p)
    (htag : g.tag p = standardTag "map" ∨ g.tag p = standardTag "set") :
    Meets (mappingEntries p) b (fun _ => Opens g root p b) (Fails g root) := by
  rw [mappingEntries]
  simp only [Meets.bind_iff, meets_nodeAt]
  split
  · next es hes =>
    simp only [Meets.bind_iff, Meets.get_iff, meets_nodeAt, Meets.pure_iff]
    refine ((flattens _).one p b ⟨es, hes⟩).mono ?_ fun _ => .inl
    rintro - - ⟨g', rfl, hg⟩
    have held : ∀ e ∈ g'.entries p, g.Holds root e.1 ∧ g.Holds root e.2 := fun e he => by
      have hoffers := h.evolves.offers (hg.mem_entries_iff.1 he)
      exact ⟨hp.child (.entry htag hoffers (.inl rfl)), hp.child (.entry htag hoffers (.inr rfl))⟩
    refine (meets_visitEntries (h.flattened hg) held).mono ?_ fun _ => id
    rintro - b' ⟨h', grows, hseen⟩
    have recovered := h'.recovered hseen
    refine ⟨recovered, grows.seen, grows.work, fun q hq => ?_⟩
    have both {e : Nat × Nat} (he : g.Offers p e) : b'.Seen e.1 ∧ b'.Seen e.2 := by
      rcases recovered.keeps p e he with hoffers | hseen' | hnil
      · rw [grows.nodes] at hoffers
        exact hseen e (hg.free.mem_of_offers hoffers)
      · exact hseen'
      · cases hnil
    obtain ⟨e, he, rfl | rfl⟩ := hq.of_mapping htag
    · exact (both he).1
    · exact (both he).2
  · simp only [meets_fail]
    exact .inl ⟨_, rfl⟩

theorem meets_pairEntries {items : List Nat} (h : Tracks g root now [] b)
    (hitems : ∀ item ∈ items, ∀ e, g.Offers item e → g.Holds root e.1 ∧ g.Holds root e.2) :
    Meets (pairEntries items) b (fun _ b' => Tracks g root now [] b' ∧ Grows b b' ∧
      ∀ item ∈ items, ∀ e, g.Offers item e → b'.Seen e.1 ∧ b'.Seen e.2) (Fails g root) := by
  induction items generalizing b with
  | nil =>
    rw [pairEntries]
    exact ⟨h, .refl b, by simp⟩
  | cons item items ih =>
    obtain ⟨hitem, hmore⟩ := List.forall_mem_cons.1 hitems
    rw [pairEntries]
    simp only [Meets.bind_iff, meets_nodeAt]
    split
    · next k v hentry =>
      have entries : b.nodes.entries item = [(k, v)] := congrArg entriesOf hentry
      simp only [Meets.bind_iff, Meets.pure_iff]
      by_cases hmerge : g.IsMergeKey k
      · exact (meets_visit_of_isMergeKey h hmerge).mono (fun _ _ => False.elim) fun _ => id
      · have own : b.nodes.Offers item (k, v) :=
          .own (by simp [entries]) (mt h.evolves.isMergeKey_iff.1 hmerge)
        obtain ⟨hk, hv⟩ := hitem _ (h.evolves.offers own)
        refine (meets_visit h hk).mono ?_ fun _ => id
        rintro - b₁ ⟨h₁, grows₁, hseen₁⟩
        refine (meets_visit h₁ hv).mono ?_ fun _ => id
        rintro - b₂ ⟨h₂, grows₂, hseen₂⟩
        refine (ih h₂ hmore).mono ?_ fun _ => id
        rintro _ b₃ ⟨h₃, grows₃, hseen₃⟩
        have grows := (grows₁.trans grows₂).trans grows₃
        refine ⟨h₃, grows, List.forall_mem_cons.2 ⟨fun e he => ?_, hseen₃⟩⟩
        rcases h₃.keeps item e he with hoffers | hseen | hnil
        · have free : b.nodes.MergeFree item := fun f hf => by
            rw [entries, List.mem_singleton] at hf
            exact hf ▸ mt h.evolves.isMergeKey_iff.1 hmerge
          rw [grows.nodes] at hoffers
          have he := free.mem_of_offers hoffers
          rw [entries, List.mem_singleton] at he
          rw [he]
          exact ⟨grows₃.seen _ (grows₂.seen _ hseen₁), grows₃.seen _ hseen₂⟩
        · exact hseen
        · cases hnil
    · simp only [meets_fail]
      exact .inl ⟨_, rfl⟩

theorem Opens.tracks_withPlan (h : Opens g root p b b') (hseen : b.Seen p) (hx : x ≠ .unknown)
    (hwaits : x ≠ .waiting) :
    Tracks g root [] [] (b'.withPlan p x) ∧ (∀ q, b.Seen q → (b'.withPlan p x).Seen q) ∧
      (b'.withPlan p x).work ≤ b.work := by
  have hself := h.seen p hseen
  have hsize : p < b'.plans.size := by
    refine Nat.lt_of_not_le fun hle => hself ?_
    simp [planAt, Array.getD_eq_getD_getElem?, hle]
  have hplans := plans_withPlan hsize hx
  refine ⟨?_, fun q hq => hplans.grows.seen q (h.seen q hq), Nat.le_trans hplans.work h.work⟩
  refine h.tracks.plans hplans (h.tracks.held p hself) (h.tracks.readable p hself)
    (fun q => .inl) ?_
    (fun _ => h.children) ?_
  · intro hw
    rw [Waits, planAt_withPlan_self hsize] at hw
    exact absurd hw hwaits
  · exact fun q hq hne => absurd (List.mem_singleton.1 hq) hne

theorem meets_open? (h : Tracks g root [p] [] b) (hseen : b.Seen p)
    (htag : isCollectionTag (g.tag p) = true) :
    Meets (open? p) b
      (fun _ b' => Tracks g root [] [] b' ∧ (∀ q, b.Seen q → b'.Seen q) ∧ b'.work ≤ b.work)
      (Fails g root) := by
  have held := h.held p hseen
  have same : b.nodes.tag p = g.tag p := h.evolves.tag_eq fun hstr => by
    rw [← h.evolves.isCollectionTag_iff, hstr] at htag
    exact absurd htag (by decide)
  have tag_eq {name : String} (hname : tagName (b.nodes.tag p) = name) :
      g.tag p = standardTag name :=
    eq_standardTag_of_isCollectionTag htag (same ▸ hname)
  rw [open?]
  simp only [Meets.bind_iff, meets_nodeAt]
  split
  · next items hname hitems =>
    have hseq := tag_eq hname
    have hcontent : g.content p = .sequence items := h.evolves.content_eq_sequence_iff.1 hitems
    simp only [Meets.bind_iff, meets_plan]
    refine (meets_visitItems h fun q hq => held.child (.item hseq hcontent hq)).mono ?_ fun _ => id
    rintro - b' ⟨h', grows, hseen'⟩
    have opens : Opens g root p b b' :=
      ⟨h', grows.seen, grows.work, fun q hq => hseen' q (hq.of_sequence hseq hcontent)⟩
    exact opens.tracks_withPlan hseen (by simp) (by simp)
  · next hname =>
    simp only [Meets.bind_iff, meets_plan]
    refine (meets_mappingEntries h held (.inl (tag_eq hname))).mono
      (fun es b' opens => ?_) fun _ => id
    exact opens.tracks_withPlan hseen (by simp) (by simp)
  · next hname =>
    simp only [Meets.bind_iff, meets_plan]
    refine (meets_mappingEntries h held (.inr (tag_eq hname))).mono
      (fun es b' opens => ?_) fun _ => id
    exact opens.tracks_withPlan hseen (by simp) (by simp)
  · next items hitems notSeq notMap notSet =>
    have hpairs : g.tag p = standardTag "omap" ∨ g.tag p = standardTag "pairs" := by
      have name {name : String} (hg : g.tag p = standardTag name) :
          tagName (b.nodes.nodeAt p).tag = name := by
        rw [show (b.nodes.nodeAt p).tag = standardTag name from same.trans hg, tagName_standardTag]
      rcases isCollectionTag_iff.1 htag with hg | (hg | hg) | hg
      · exact (notSeq (name hg)).elim
      · exact (notMap (name hg)).elim
      · exact (notSet (name hg)).elim
      · exact hg
    have hcontent : g.content p = .sequence items := h.evolves.content_eq_sequence_iff.1 hitems
    simp only [Meets.bind_iff, meets_plan]
    refine (meets_pairEntries h fun item hitem e he => ?_).mono ?_ fun _ => id
    · exact ⟨held.child (.pair hpairs hcontent hitem he (.inl rfl)),
        held.child (.pair hpairs hcontent hitem he (.inr rfl))⟩
    · rintro es b' ⟨h', grows, hseen'⟩
      have opens : Opens g root p b b' := by
        refine ⟨h', grows.seen, grows.work, fun q hq => ?_⟩
        obtain ⟨item, hitem, e, he, rfl | rfl⟩ := hq.of_pairs hpairs hcontent
        · exact (hseen' item hitem e he).1
        · exact (hseen' item hitem e he).2
      exact opens.tracks_withPlan hseen (by simp) (by simp)
  · simp only [meets_fail]
    exact .inl ⟨_, rfl⟩

theorem meets_openAll (fuel : Nat) : ∀ b : Builder, Tracks g root [] [] b → b.work ≤ fuel →
    Meets (openAll fuel) b
      (fun _ b' => Tracks g root [] [] b' ∧ b'.queue = [] ∧ ∀ q, b.Seen q → b'.Seen q)
      (Fails g root) := by
  induction fuel with
  | zero =>
    intro b h hwork
    -- The fuel ends no sooner than the work, so no collection is left out.
    have hempty : b.queue = [] :=
      List.eq_nil_of_length_eq_zero (by simp only [work] at hwork; omega)
    rw [openAll]
    exact ⟨h, hempty, fun _ => id⟩
  | succ fuel ih =>
    intro b h hwork
    rw [openAll]
    simp only [Meets.bind_iff, Meets.get_iff]
    split
    · next hempty => exact ⟨h, hempty, fun _ => id⟩
    · next p rest hqueue =>
      obtain ⟨hseen, htag⟩ := h.queued p (by simp [hqueue])
      simp only [Meets.bind_iff, Meets.modify_iff]
      have tracks : Tracks g root [p] [] { b with queue := rest } :=
        { h with
          queued := fun q hq => h.queued q (by simp [hqueue, hq])
          waits := fun q hq => by
            rcases h.waits q hq with hnil | hin
            · cases hnil
            · simpa [hqueue] using hin }
      refine (meets_open? tracks hseen htag).mono ?_ fun _ => id
      rintro - b' ⟨h', hseen', hwork'⟩
      have hless : b'.work ≤ fuel := by
        simp only [work, hqueue, List.length_cons] at hwork hwork' ⊢
        omega
      refine (ih b' h' hless).mono ?_ fun _ => id
      rintro - b'' ⟨h'', hempty, hseen''⟩
      exact ⟨h'', hempty, fun q hq => hseen'' q (hseen' q hq)⟩

/-- When no collection is left, all nodes that the root leads to were seen. -/
theorem Tracks.seen_of_holds (h : Tracks g root [] [] b) (hempty : b.queue = [])
    (hroot : b.Seen root) (hp : g.Holds root p) : b.Seen p := by
  induction hp with
  | refl => exact hroot
  | @tail q r _ hchild ih =>
    refine h.opened q ih (fun hwaits => ?_) r hchild
    rcases h.waits q hwaits with hnil | hqueue
    · cases hnil
    · rw [hempty] at hqueue
      cases hqueue

end

/-- The state in which nothing is known. -/
def start (g : Graph) : Builder := ⟨g, Array.replicate g.size .unknown, []⟩

theorem not_seen_start {g : Graph} {p : Nat} : ¬ (start g).Seen p := by
  simp [start, Seen, planAt, Array.getD_eq_getD_getElem?, Array.getElem?_replicate]
  split <;> rfl

theorem tracks_start (g : Graph) (root : Nat) : Tracks g root [] [] (start g) where
  size := by simp [start]
  evolves := .refl g
  held _ h := absurd h not_seen_start
  readable _ h := absurd h not_seen_start
  queued _ h := by cases h
  waits p h := by
    refine absurd (fun hp => ?_) (not_seen_start (g := g) (p := p))
    rw [Waits, hp] at h
    cases h
  opened _ h := absurd h not_seen_start
  keeps _ _ := .inl

theorem meets_plansOf (g : Graph) (root : Nat) :
    Meets (do visit root; openAll (g.size + 1)) (start g)
    (fun _ _ => ∀ p, g.Holds root p → ∀ e, ¬ g.Broken p e) (Fails g root) := by
  simp only [Meets.bind_iff]
  refine (meets_visit (tracks_start g root) .refl).mono ?_ fun _ => id
  rintro - b ⟨h, grows, hroot⟩
  have hwork : b.work ≤ g.size + 1 := by
    refine Nat.le_trans grows.work (Nat.le_succ_of_le ?_)
    simp [work, start, Array.countP_replicate, Plan.isUnknown]
  refine (meets_openAll _ b h hwork).mono ?_ fun _ => id
  rintro - b' ⟨h', hempty, hseen⟩ p hp
  exact (h'.readable p (h'.seen_of_holds hempty (hseen root hroot) hp)).not_broken

theorem plansOf_eq (g : Graph) (root : Nat) : plansOf root g = (do
    let r ← (do visit root; openAll (g.size + 1) : Step Unit).run (start g)
    return r.2.plans) := rfl

end Builder

/-! ### Values of documents -/

variable {g : Graph} {root : Nat}

/-- **A document has a value only if each scalar that it holds has one.** -/
theorem not_broken_of_value {v : Value} (h : g.value root = .ok v) {p : Nat} (hp : g.Holds root p)
    (e : Error) : ¬ g.Broken p e := by
  have meets := meets_plansOf g root
  obtain ⟨plans, hplans, -⟩ := Except.of_bind_ok h
  rw [plansOf_eq] at hplans
  unfold Meets at meets
  generalize StateT.run _ _ = r at meets hplans
  cases r with
  | error e => cases hplans
  | ok r => exact meets p hp e

/-- **A document without a value has not the right form, or it holds a scalar that cannot be
read.** -/
theorem fails_of_value {e : Error} (h : g.value root = .error e) : Fails g root e := by
  have meets := meets_plansOf g root
  unfold Graph.value at h
  rw [plansOf_eq] at h
  unfold Meets at meets
  generalize StateT.run _ _ = r at meets h
  cases r with
  | error e =>
    cases h
    exact meets
  | ok r => cases h

end ActionItems.Yaml

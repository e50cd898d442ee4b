import EntityForge.Proofs.Construction

/-!
# Nodes of a text without a written tag

Nodes are made of tokens one after another, and an alias takes over a node made before. If no token
writes a tag, then none does in what is left of the tokens, and no node that has a name holds one;
this is kept by every step, so that the node of the whole text is untagged. What is not a node is
refused.
-/

namespace EntityForge.Yaml

/-- No token writes a tag. -/
def Tagless (ts : List Token) : Prop := ∀ name, Token.tag name ∉ ts

/-- The token writes a tag. -/
def Token.isTag : Token → Bool
  | .tag _ => true
  | _ => false

instance (ts : List Token) : Decidable (Tagless ts) :=
  decidable_of_iff (∀ t ∈ ts, t.isTag = false) <| by
    constructor
    · intro h name hmem
      exact Bool.noConfusion (h _ hmem)
    · intro h t ht
      cases t with
      | tag name => exact absurd ht (h name)
      | _ => rfl

namespace Outline

variable {o : Outline} {n : Node} {name : Option String}

/-- No tag is written in what is left of a document, nor in the nodes that have a name. -/
structure Untagged (o : Outline) : Prop where
  tokens : Tagless o.tokens
  anchors : ∀ e ∈ o.anchors, e.2.Untagged

theorem Untagged.peek_ne (h : o.Untagged) (t : TagName) : o.peek ≠ .tag t := by
  intro hpeek
  rw [peek] at hpeek
  cases htokens : o.tokens with
  | nil =>
    rw [htokens] at hpeek
    exact nomatch hpeek
  | cons first rest =>
    have hfirst : first = .tag t := by simpa [htokens] using hpeek
    apply h.tokens t
    rw [htokens, hfirst]
    exact List.mem_cons_self

theorem Untagged.next (h : o.Untagged) : o.next.Untagged :=
  ⟨fun t ht => h.tokens t (List.mem_of_mem_drop ht), h.anchors⟩

theorem yields_expect (h : o.Untagged) (t : Token) : Yields Untagged (o.expect t) := by
  unfold expect
  split
  · exact h.next
  · rfl

/-- In front of a node there may be its name, and nothing else. -/
theorem yields_properties (h : o.Untagged) :
    Yields (fun r => r.2.1 = none ∧ r.2.2.Untagged) o.properties := by
  unfold properties
  split
  · dsimp only
    split
    · rename_i t ht
      exact absurd ht (h.next.peek_ne t)
    · exact ⟨rfl, h.next⟩
  · rename_i t ht
    exact absurd ht (h.peek_ne t)
  · exact ⟨rfl, h⟩

theorem yields_claim (h : o.Untagged) : Yields Untagged (o.claim name) := by
  unfold claim
  split
  · exact h
  · split
    · rfl
    · exact ⟨h.tokens, h.anchors⟩

theorem Untagged.remember (h : o.Untagged) (hn : n.Untagged) : (o.remember name n).Untagged := by
  unfold Outline.remember
  split
  · exact h
  · exact ⟨h.tokens, List.forall_mem_cons.mpr ⟨hn, h.anchors⟩⟩

/-- A scalar without a written tag has that of its look. -/
theorem untagged_scalar (plain : Bool) (s : String) :
    (Node.scalar (scalarTag none plain s) s).Untagged := by
  refine .scalar ?_
  cases plain with
  | true => exact Or.inr rfl
  | false => exact Or.inl rfl

theorem untagged_empty : Node.empty.Untagged := .scalar (Or.inr (by decide +kernel))

/-! ## Nodes and their parts -/

/-- An untagged node, and an outline that is left untagged. -/
def NodeLeft (r : Node × Outline) : Prop := r.1.Untagged ∧ r.2.Untagged

/-- Untagged members, and an outline that is left untagged. -/
def ItemsLeft (r : List Node × Outline) : Prop := (∀ n ∈ r.1, n.Untagged) ∧ r.2.Untagged

/-- Untagged entries, and an outline that is left untagged. -/
def EntriesLeft (r : List (Node × Node) × Outline) : Prop :=
  (∀ e ∈ r.1, e.1.Untagged ∧ e.2.Untagged) ∧ r.2.Untagged

theorem itemsLeft_nil (h : o.Untagged) : ItemsLeft ([], o) :=
  ⟨List.forall_mem_nil _, h⟩

theorem entriesLeft_nil (h : o.Untagged) : EntriesLeft ([], o) :=
  ⟨List.forall_mem_nil _, h⟩

theorem ItemsLeft.cons {r : List Node × Outline} (h : ItemsLeft r) (hn : n.Untagged) :
    ItemsLeft (n :: r.1, r.2) :=
  ⟨List.forall_mem_cons.mpr ⟨hn, h.1⟩, h.2⟩

theorem EntriesLeft.cons {r : List (Node × Node) × Outline} {v : Node} (h : EntriesLeft r)
    (hk : n.Untagged) (hv : v.Untagged) : EntriesLeft ((n, v) :: r.1, r.2) :=
  ⟨List.forall_mem_cons.mpr ⟨⟨hk, hv⟩, h.1⟩, h.2⟩

theorem yields_bare (h : o.Untagged) : Yields NodeLeft (bare name none o) := by
  unfold bare
  split
  · rfl
  · exact ⟨untagged_scalar true "", h⟩

theorem untagged_sequence {r : List Node × Outline} (h : ItemsLeft r) :
    NodeLeft (.sequence (tagOr none .sequence) r.1, r.2) :=
  ⟨.sequence h.1, h.2⟩

theorem untagged_mapping {r : List (Node × Node) × Outline} (h : EntriesLeft r) :
    NodeLeft (.mapping (tagOr none .mapping) r.1, r.2) :=
  ⟨.mapping (fun e he => (h.1 e he).1) fun e he => (h.1 e he).2, h.2⟩

/-- With some fuel, everything that is made of an untagged outline is untagged. -/
structure Composes (fuel : Nat) : Prop where
  node (block loose : Bool) {o : Outline} (h : o.Untagged) :
    Yields NodeLeft (node block loose fuel o)
  nodeOrEmpty (block loose : Bool) (stops : List Token) {o : Outline} (h : o.Untagged) :
    Yields NodeLeft (nodeOrEmpty block loose stops fuel o)
  blockItems {o : Outline} (h : o.Untagged) : Yields ItemsLeft (blockItems fuel o)
  looseItems {o : Outline} (h : o.Untagged) : Yields ItemsLeft (looseItems fuel o)
  blockEntries {o : Outline} (h : o.Untagged) : Yields EntriesLeft (blockEntries fuel o)
  flowItems (first : Bool) {o : Outline} (h : o.Untagged) : Yields ItemsLeft (flowItems first fuel o)
  flowEntries (first : Bool) {o : Outline} (h : o.Untagged) :
    Yields EntriesLeft (flowEntries first fuel o)

section Step

variable {fuel : Nat} (c : Composes fuel)

include c

theorem Composes.node_succ (block loose : Bool) (h : o.Untagged) :
    Yields NodeLeft (Outline.node block loose (fuel + 1) o) := by
  have hleft (name : Option String) {r : Node × Outline} (hr : NodeLeft r) :
      NodeLeft (r.1, remember name r.1 r.2) :=
    ⟨hr.1, hr.2.remember hr.1⟩
  have hbare (name : Option String) {o : Outline} (ho : o.Untagged) :
      Yields NodeLeft (bare name none o >>= fun r => pure (r.1, remember name r.1 r.2)) :=
    (yields_bare ho).bind fun _ hr => hleft name hr
  rw [Outline.node]
  dsimp only
  split
  · -- An alias is a node made before, which has a name.
    split
    · rename_i n hn
      obtain ⟨front, back, hanchors, -⟩ := List.lookup_eq_some_iff.mp hn
      have hmem : (_, n) ∈ o.anchors := hanchors ▸ List.mem_append_right _ List.mem_cons_self
      exact ⟨h.anchors _ hmem, h.next⟩
    · exact rfl
  · refine (yields_properties h).bind ?_
    rintro ⟨name, written, o⟩ ⟨rfl, ho⟩
    refine (yields_claim ho).bind fun o ho => ?_
    dsimp only
    split
    · split
      · exact (c.looseItems ho).bind fun _ hr => hleft name (untagged_sequence hr)
      · exact hbare name ho
    · exact hleft name ⟨untagged_scalar _ _, ho.next⟩
    · exact (c.flowItems true ho.next).bind fun _ hr => hleft name (untagged_sequence hr)
    · exact (c.flowEntries true ho.next).bind fun _ hr => hleft name (untagged_mapping hr)
    · split
      · exact (c.blockItems ho.next).bind fun _ hr => hleft name (untagged_sequence hr)
      · exact hbare name ho
    · split
      · exact (c.blockEntries ho.next).bind fun _ hr => hleft name (untagged_mapping hr)
      · exact hbare name ho
    · exact hbare name ho

theorem Composes.nodeOrEmpty_succ (block loose : Bool) (stops : List Token) (h : o.Untagged) :
    Yields NodeLeft (Outline.nodeOrEmpty block loose stops (fuel + 1) o) := by
  rw [Outline.nodeOrEmpty]
  split
  · exact ⟨untagged_empty, h⟩
  · exact c.node block loose h

theorem Composes.blockItems_succ (h : o.Untagged) :
    Yields ItemsLeft (Outline.blockItems (fuel + 1) o) := by
  rw [Outline.blockItems]
  split
  · exact (yields_expect h _).bind fun _ hleft => itemsLeft_nil hleft
  · refine (c.nodeOrEmpty _ _ _ h.next).bind fun _ hn => ?_
    exact (c.blockItems hn.2).bind fun _ hns => hns.cons hn.1

theorem Composes.looseItems_succ (h : o.Untagged) :
    Yields ItemsLeft (Outline.looseItems (fuel + 1) o) := by
  rw [Outline.looseItems]
  split
  · exact itemsLeft_nil h
  · refine (c.nodeOrEmpty _ _ _ h.next).bind fun _ hn => ?_
    exact (c.looseItems hn.2).bind fun _ hns => hns.cons hn.1

theorem Composes.blockEntries_succ (h : o.Untagged) :
    Yields EntriesLeft (Outline.blockEntries (fuel + 1) o) := by
  rw [Outline.blockEntries]
  split
  · exact (yields_expect h _).bind fun _ hleft => entriesLeft_nil hleft
  · refine (c.nodeOrEmpty _ _ _ h.next).bind fun k hk => ?_
    dsimp only
    refine Yields.either (c.nodeOrEmpty _ _ _ hk.2.next)
      (yields_pure ⟨untagged_empty, hk.2⟩) fun v hv => ?_
    exact (c.blockEntries hv.2).bind fun _ hes => hes.cons hk.1 hv.1

theorem Composes.flowItems_succ (first : Bool) (h : o.Untagged) :
    Yields ItemsLeft (Outline.flowItems first (fuel + 1) o) := by
  rw [Outline.flowItems]
  dsimp only
  split
  · exact itemsLeft_nil h.next
  · refine Yields.either (yields_pure h) (yields_expect h _) fun o ho => ?_
    split
    · exact itemsLeft_nil ho.next
    · refine (c.nodeOrEmpty _ _ _ ho.next).bind fun k hk => ?_
      refine Yields.either (c.nodeOrEmpty _ _ _ hk.2.next)
        (yields_pure ⟨untagged_empty, hk.2⟩) fun v hv => ?_
      have hentry : (Node.mapping .mapping [(k.1, v.1)]).Untagged :=
        .mapping (List.forall_mem_singleton.mpr hk.1) (List.forall_mem_singleton.mpr hv.1)
      exact (c.flowItems false hv.2).bind fun _ hns => hns.cons hentry
    · refine (c.node _ _ ho).bind fun n hn => ?_
      exact (c.flowItems false hn.2).bind fun _ hns => hns.cons hn.1

theorem Composes.flowEntries_succ (first : Bool) (h : o.Untagged) :
    Yields EntriesLeft (Outline.flowEntries first (fuel + 1) o) := by
  rw [Outline.flowEntries]
  dsimp only
  split
  · exact entriesLeft_nil h.next
  · refine Yields.either (yields_pure h) (yields_expect h _) fun o ho => ?_
    split
    · exact entriesLeft_nil ho.next
    · refine (c.nodeOrEmpty _ _ _ ho.next).bind fun k hk => ?_
      refine Yields.either (c.nodeOrEmpty _ _ _ hk.2.next)
        (yields_pure ⟨untagged_empty, hk.2⟩) fun v hv => ?_
      exact (c.flowEntries false hv.2).bind fun _ hes => hes.cons hk.1 hv.1
    · refine (c.node _ _ ho).bind fun k hk => ?_
      exact (c.flowEntries false hk.2).bind fun _ hes => hes.cons hk.1 untagged_empty

end Step

/-- Whatever the fuel, everything that is made of an untagged outline is untagged. -/
theorem composes (fuel : Nat) : Composes fuel := by
  induction fuel with
  | zero =>
    constructor
    case node => exact fun _ _ _ _ => rfl
    case nodeOrEmpty => exact fun _ _ _ _ _ => rfl
    case blockItems => exact fun _ => rfl
    case looseItems => exact fun _ => rfl
    case blockEntries => exact fun _ => rfl
    case flowItems => exact fun _ _ _ => rfl
    case flowEntries => exact fun _ _ _ => rfl
  | succ fuel ih =>
    constructor
    case node => exact fun block loose _ => ih.node_succ block loose
    case nodeOrEmpty => exact fun block loose stops _ => ih.nodeOrEmpty_succ block loose stops
    case blockItems => exact ih.blockItems_succ
    case looseItems => exact ih.looseItems_succ
    case blockEntries => exact ih.blockEntries_succ
    case flowItems => exact fun first _ => ih.flowItems_succ first
    case flowEntries => exact fun first _ => ih.flowEntries_succ first

/-- The directives in front of a document take no tags away and add none. -/
theorem yields_directives {ts : List Token} (h : Tagless ts) (versioned : Bool)
    (handles : List (String × String)) :
    Yields (fun r => Tagless r.2) (directives ts versioned handles) := by
  fun_induction directives ts versioned handles with
  | case1 => rfl
  | case2 _ _ _ _ _ ih => exact ih fun t ht => h t (List.mem_cons_of_mem _ ht)
  | case3 => rfl
  | case4 _ _ _ _ _ _ ih => exact ih fun t ht => h t (List.mem_cons_of_mem _ ht)
  | case5 _ _ _ ih => exact ih fun t ht => h t (List.mem_cons_of_mem _ ht)
  | case6 => exact h

end Outline

/-- The document of a text without a written tag is an untagged node, if there is one. -/
theorem yields_document {ts : List Token} (h : Tagless ts) :
    Yields (fun r => ∀ n ∈ r, n.Untagged) (document? ts) := by
  have hfinish {n : Node} (hn : n.Untagged) (ends : Prop) [Decidable ends] :
      Yields (fun r : Option Node => ∀ m ∈ r, m.Untagged)
        (if ends then .ok (some n) else .error .malformed) := by
    split
    · rintro m ⟨⟩
      exact hn
    · exact rfl
  unfold document?
  dsimp only
  split
  case h_1 => exact fun n hn => nomatch hn
  case h_4 =>
    have hstart : Outline.Untagged { tokens := ts, handles := Outline.standardHandles } :=
      ⟨h, List.forall_mem_nil _⟩
    exact ((Outline.composes _).node true false hstart).bind fun r hr => hfinish hr.1 _
  -- In front of a marked document there are directives, of which there may be none.
  all_goals
    refine (Outline.yields_directives h _ _).bind fun r hr => ?_
    refine (Outline.yields_expect ⟨hr, List.forall_mem_nil _⟩ _).bind fun o ho => ?_
    split
    case h_5 => exact ((Outline.composes _).node true false ho).bind fun r hr => hfinish hr.1 _
    all_goals exact hfinish Outline.untagged_empty _

/-- A text has a value or is refused, if its tokens are refused or write no tag. -/
theorem orderly_read {cs : List Char} (h : Yields Tagless (tokens cs)) : Orderly (read cs) := by
  refine h.bind fun ts hts => (yields_document hts).bind fun r hr => ?_
  cases r with
  | none => exact orderly_ok _
  | some n => exact Node.orderly_value n (hr n rfl)

end EntityForge.Yaml

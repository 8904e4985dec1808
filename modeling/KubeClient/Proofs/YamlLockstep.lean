import KubeClient.Document.Yaml.Reader

/-!
# Two readers over one document

A document of YAML may be read in two ways, as a text of JSON may be: as the shape that is asked
for, or as a value of any shape. The walks may follow different numbers of aliases, so only their
positions are compared.

* `Yaml.Reader.exists_of_bind_eq_ok`, `exists_of_node_eq_ok` and the other inversions : what came
  before a success;
* `Yaml.Reader.Lockstep` : two readers that succeed have come equally far, and what they have made
  of the document is related;
* `Yaml.Reader.lockstep_node`, `lockstep_members` : nodes, and the members of mappings.
-/

namespace KubeClient.Yaml.Reader

variable {α β γ δ κ ι : Type} {r : Reader α} {q : Reader β} {f : α → Reader γ} {g : β → Reader δ}
  {p : Place} {w v : Walk} {i : Nat} {m : Mark}

/-! ### What came before a success -/

theorem exists_of_bind_eq_ok {c : γ} (h : (r >>= f) p w = .ok c v) :
    ∃ a u, r p w = .ok a u ∧ f a p u = .ok c v := by
  change EStateM.bind (r p) (fun a => f a p) w = _ at h
  unfold EStateM.bind at h
  cases hr : r p w with
  | error _ _ =>
    rw [hr] at h
    cases h
  | ok a u =>
    rw [hr] at h
    exact ⟨a, u, rfl, h⟩

theorem exists_of_map_eq_ok {f : α → γ} {c : γ} (h : (f <$> r) p w = .ok c v) :
    ∃ a, r p w = .ok a v ∧ c = f a := by
  rw [map_eq_pure_bind] at h
  obtain ⟨a, u, hr, hpure⟩ := exists_of_bind_eq_ok h
  cases hpure
  exact ⟨a, hr, rfl⟩

theorem exists_of_ofExcept_eq_ok {o : Except Cause α} {a : α} (h : ofExcept o p w = .ok a v) :
    o = .ok a ∧ v = w := by
  cases o with
  | error _ => cases h
  | ok a' =>
    cases h
    exact ⟨rfl, rfl⟩

theorem locate_eq_ok {a : α} : locate m r p w = .ok a v ↔ r p w = .ok a v := by
  unfold locate
  cases r p w with
  | ok _ _ => simp
  | error fault _ =>
    cases fault with
    | shape cause place => cases place <;> simp
    | _ => simp

theorem exists_of_peek_eq_ok {e : Node × Mark} (h : peek p w = .ok e v) :
    p.document.events[w.position]? = some e ∧ v = w := by
  obtain ⟨_, _, hplace, h⟩ := exists_of_bind_eq_ok h
  cases hplace
  obtain ⟨_, _, hwalk, h⟩ := exists_of_bind_eq_ok h
  cases hwalk
  cases hevent : p.document.events[w.position]? with
  | none =>
    rw [hevent] at h
    cases h
  | some e' =>
    rw [hevent] at h
    cases h
    exact ⟨rfl, rfl⟩

/-- Where the node at `i` begins: at its anchor, if it is an alias. -/
def origin (d : Document) (i : Nat) : Nat :=
  match d.events[i]? with
  | some (.alias id, _) => (d.anchors.lookup id).getD d.events.size
  | _ => i

/-- Where a walk goes on behind the node at `i`, if the node itself ends in front of `j`. -/
def behind (d : Document) (i j : Nat) : Nat :=
  match d.events[i]? with
  | some (.alias _, _) => i + 1
  | _ => j

/-- A node is an alias, or begins and ends where it is met. -/
theorem alias_or_here (d : Document) (i : Nat) :
    (∃ id m, d.events[i]? = some (.alias id, m) ∧ ∀ j, behind d i j = i + 1) ∨
      (origin d i = i ∧ ∀ j, behind d i j = j) := by
  unfold origin behind
  cases d.events[i]? with
  | none => exact .inr ⟨rfl, fun _ => rfl⟩
  | some e =>
    obtain ⟨n, m⟩ := e
    cases n with
    | «alias» id => exact .inl ⟨id, m, rfl, fun _ => rfl⟩
    | _ => exact .inr ⟨rfl, fun _ => rfl⟩

theorem exists_of_jumping_eq_ok {a : α} (h : jumping r p w = .ok a v) :
    ∃ u u', u.position = origin p.document w.position ∧ r p u = .ok a u' ∧
      v.position = behind p.document w.position u'.position := by
  obtain ⟨e, _, hpeek, h⟩ := exists_of_bind_eq_ok h
  obtain ⟨hevent, rfl⟩ := exists_of_peek_eq_ok hpeek
  obtain ⟨n, m⟩ := e
  unfold origin behind
  rw [hevent]
  cases n with
  | «alias» id =>
    -- the walk passes the alias, reads at the anchor, and comes back behind the alias
    obtain ⟨_, w₁, hadvance, h⟩ := exists_of_bind_eq_ok h
    cases hadvance
    obtain ⟨_, w₂, hplace, h⟩ := exists_of_bind_eq_ok h
    cases hplace
    obtain ⟨_, w₃, hjump, h⟩ := exists_of_bind_eq_ok h
    cases hjump
    obtain ⟨_, w₄, hwalk, h⟩ := exists_of_bind_eq_ok h
    cases hwalk
    dsimp only at h
    split at h
    · cases h
    · obtain ⟨_, w₅, hwalk, h⟩ := exists_of_bind_eq_ok h
      cases hwalk
      obtain ⟨_, w₆, hjump, h⟩ := exists_of_bind_eq_ok h
      cases hjump
      obtain ⟨a', u', hr, h⟩ := exists_of_bind_eq_ok h
      obtain ⟨_, w₇, hback, h⟩ := exists_of_bind_eq_ok h
      cases hback
      cases h
      exact ⟨_, u', rfl, hr, rfl⟩
  | _ => exact ⟨_, v, rfl, h, rfl⟩

theorem exists_of_node_eq_ok {r : Node → Mark → Reader α} {a : α} (h : node r p w = .ok a v) :
    ∃ n m u u', p.document.events[origin p.document w.position]? = some (n, m) ∧
      u.position = origin p.document w.position + 1 ∧ r n m p u = .ok a u' ∧
      v.position = behind p.document w.position u'.position := by
  obtain ⟨u, u', hu, h, hv⟩ := exists_of_jumping_eq_ok h
  obtain ⟨⟨n, m⟩, _, hpeek, htail⟩ := exists_of_bind_eq_ok h
  obtain ⟨hevent, rfl⟩ := exists_of_peek_eq_ok hpeek
  obtain ⟨_, w₁, hadvance, hlocate⟩ := exists_of_bind_eq_ok htail
  cases hadvance
  rw [hu] at hevent
  refine ⟨n, m, _, u', hevent, ?_, locate_eq_ok.mp hlocate, hv⟩
  exact congrArg (· + 1) hu

theorem exists_of_deeper_eq_ok {a : α} (h : deeper m r p w = .ok a v) :
    r { p with depth := p.depth - 1 } w = .ok a v := by
  obtain ⟨_, _, hplace, h⟩ := exists_of_bind_eq_ok h
  cases hplace
  split at h
  · cases h
  · exact h

/-- One turn of the loop over the members of a mapping. -/
theorem exists_of_foldMembers_eq_ok {key : Bool → Reader κ} {member : α → κ → Reader α}
    {first : Bool} {a a' : α} {fuel : Nat}
    (h : foldMembers key member first a (fuel + 1) p w = .ok a' v) :
    ∃ e, p.document.events[w.position]? = some e ∧
      ((e.1 = .mappingEnd ∧ a' = a ∧ v.position = w.position + 1) ∨
      (e.1 ≠ .mappingEnd ∧ ∃ text k b w₁ w₂, key first p w = .ok k w₁ ∧
        atMember text (member a k) p w₁ = .ok b w₂ ∧
        foldMembers key member false b fuel p w₂ = .ok a' v)) := by
  unfold foldMembers at h
  obtain ⟨e, _, hpeek, h⟩ := exists_of_bind_eq_ok h
  obtain ⟨hevent, rfl⟩ := exists_of_peek_eq_ok hpeek
  obtain ⟨n, m⟩ := e
  refine ⟨(n, m), hevent, ?_⟩
  cases n with
  | mappingEnd =>
    obtain ⟨_, w₁, hadvance, h⟩ := exists_of_bind_eq_ok h
    cases hadvance
    cases h
    exact .inl ⟨rfl, rfl, rfl⟩
  | _ =>
    refine .inr ⟨by simp, ?_⟩
    obtain ⟨text, w₁, htext, h⟩ := exists_of_bind_eq_ok h
    cases htext
    obtain ⟨k, w₁, hkey, h⟩ := exists_of_bind_eq_ok h
    obtain ⟨b, w₂, hmember, h⟩ := exists_of_bind_eq_ok h
    exact ⟨_, k, b, w₁, w₂, hkey, hmember, h⟩

/-- A loop one level deeper turns once for every event, and once more. -/
theorem exists_of_sized_eq_ok {r : Nat → Reader α} {a : α}
    (h : (do deeper m (r (← size))) p w = .ok a v) :
    r (p.document.events.size + 1) { p with depth := p.depth - 1 } w = .ok a v := by
  obtain ⟨n, _, hsize, h⟩ := exists_of_bind_eq_ok h
  obtain ⟨_, _, hplace, hpure⟩ := exists_of_bind_eq_ok hsize
  cases hplace
  cases hpure
  exact exists_of_deeper_eq_ok h

theorem exists_of_members_eq_ok {key : Bool → Reader κ} {member : α → κ → Reader α} {a a' : α}
    (h : members m key member a p w = .ok a' v) :
    foldMembers key member true a (p.document.events.size + 1)
      { p with depth := p.depth - 1 } w = .ok a' v :=
  exists_of_sized_eq_ok h

/-! ### Rules -/

variable {R : α → β → Prop} {S : γ → δ → Prop} {d : Document} {depth : Nat}

/-- If both readers succeed at the position `i` of `d`, whatever the paths that lead there, they
have come equally far, and their answers are related. -/
def Lockstep (R : α → β → Prop) (r : Reader α) (q : Reader β) (d : Document) (depth i : Nat) :
    Prop :=
  ∀ ⦃path path' : Option String⦄ ⦃w w' v v' : Walk⦄ ⦃a : α⦄ ⦃b : β⦄,
    w.position = i → w'.position = i → r ⟨d, depth, path⟩ w = .ok a v →
      q ⟨d, depth, path'⟩ w' = .ok b v' → v.position = v'.position ∧ R a b

theorem lockstep_pure {a : α} {b : β} (h : R a b) : Lockstep R (pure a) (pure b) d depth i := by
  intro path path' w w' v v' a' b' hw hw' hr hq
  cases hr
  cases hq
  exact ⟨hw.trans hw'.symm, h⟩

theorem lockstep_of_fails (h : ∀ p w a v, r p w ≠ .ok a v) : Lockstep R r q d depth i :=
  fun _ _ _ _ _ _ _ _ _ _ hr _ => (h _ _ _ _ hr).elim

theorem lockstep_of_fails_right (h : ∀ p w b v, q p w ≠ .ok b v) : Lockstep R r q d depth i :=
  fun _ _ _ _ _ _ _ _ _ _ _ hq => (h _ _ _ _ hq).elim

theorem Lockstep.bind (h : Lockstep R r q d depth i)
    (hf : ∀ a b j, R a b → Lockstep S (f a) (g b) d depth j) :
    Lockstep S (r >>= f) (q >>= g) d depth i := by
  intro path path' w w' v v' c e hw hw' hr hq
  obtain ⟨a, u, hr, hf'⟩ := exists_of_bind_eq_ok hr
  obtain ⟨b, u', hq, hg'⟩ := exists_of_bind_eq_ok hq
  obtain ⟨hu, hab⟩ := h hw hw' hr hq
  exact hf a b u.position hab rfl hu.symm hf' hg'

theorem lockstep_node {r : Node → Mark → Reader α} {q : Node → Mark → Reader β}
    (h : ∀ n m j, Lockstep R (r n m) (q n m) d depth j) :
    Lockstep R (node r) (node q) d depth i := by
  intro path path' w w' v v' a b hw hw' hr hq
  obtain ⟨n, m, u, v₁, hevent, hu, hr, hv⟩ := exists_of_node_eq_ok hr
  obtain ⟨n', m', u', v₂, hevent', hu', hq, hv'⟩ := exists_of_node_eq_ok hq
  dsimp only at hevent hu hv hevent' hu' hv'
  rw [hw] at hevent hu hv
  rw [hw'] at hevent' hu' hv'
  cases hevent.symm.trans hevent'
  obtain ⟨hend, hab⟩ := h n m _ hu hu' hr hq
  exact ⟨by rw [hv, hv', hend], hab⟩

variable {key : Bool → Reader κ} {key' : Bool → Reader ι} {K : κ → ι → Prop}
  {member : α → κ → Reader α} {member' : β → ι → Reader β}

theorem lockstep_foldMembers (hkey : ∀ first j, Lockstep K (key first) (key' first) d depth j)
    (hmember : ∀ a b k k' j, R a b → K k k' → Lockstep R (member a k) (member' b k') d depth j)
    (first : Bool) {a : α} {b : β} (hab : R a b) (fuel : Nat) :
    Lockstep R (foldMembers key member first a fuel) (foldMembers key' member' first b fuel) d
      depth i := by
  induction fuel generalizing first a b i with
  | zero => exact lockstep_of_fails fun _ _ _ _ hr => by cases hr
  | succ fuel ih =>
    -- both loops meet the same events, so they turn equally often
    intro path path' w w' v v' a' b' hw hw' hr hq
    obtain ⟨e, hevent, hr⟩ := exists_of_foldMembers_eq_ok hr
    obtain ⟨e', hevent', hq⟩ := exists_of_foldMembers_eq_ok hq
    dsimp only at hevent hevent'
    rw [hw] at hevent
    rw [hw'] at hevent'
    cases hevent.symm.trans hevent'
    rcases hr with ⟨hclosed, rfl, hv⟩ | ⟨hopen, text, k, a₁, w₁, w₂, hk, hr, htail⟩
    · rcases hq with ⟨-, rfl, hv'⟩ | ⟨hopen, -⟩
      · exact ⟨by rw [hv, hv', hw, hw'], hab⟩
      · exact (hopen hclosed).elim
    · rcases hq with ⟨hclosed, -⟩ | ⟨-, text', k', b₁, w₁', w₂', hk', hq, htail'⟩
      · exact (hopen hclosed).elim
      · obtain ⟨hw₁, hkk⟩ := hkey first i hw hw' hk hk'
        obtain ⟨hw₂, hab⟩ := hmember a b k k' w₁.position hab hkk rfl hw₁.symm hr hq
        exact ih false hab rfl hw₂.symm htail htail'

/-- What one member keeps, all members keep. -/
theorem lockstep_members
    (hkey : ∀ first j, Lockstep K (key first) (key' first) d (depth - 1) j)
    (hmember : ∀ a b k k' j, R a b → K k k' →
      Lockstep R (member a k) (member' b k') d (depth - 1) j) {a : α} {b : β} (hab : R a b) :
    Lockstep R (members m key member a) (members m key' member' b) d depth i := by
  intro path path' w w' v v' a' b' hw hw' hr hq
  have hr := exists_of_members_eq_ok hr
  have hq := exists_of_members_eq_ok hq
  exact lockstep_foldMembers hkey hmember true hab _ hw hw' hr hq

end KubeClient.Yaml.Reader

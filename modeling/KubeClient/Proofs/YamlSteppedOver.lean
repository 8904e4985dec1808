import KubeClient.Proofs.YamlLockstep

/-!
# Nodes that are read are stepped over

A member that nothing asks for is stepped over by counting what opens and what closes. What can be
read as a value is stepped over up to the same event.

* `Yaml.Node.level` : how many collections are open behind an event;
* `Yaml.Reader.SteppedOver` : the events of a node;
* `Yaml.Reader.Leaves` : the events up to the end of a collection;
* `Yaml.Reader.steppedOver_value` : what is read as a value is stepped over;
* `Yaml.Reader.lockstep_skip` : stepping over a node and reading it lead equally far.
-/

namespace KubeClient.Yaml

/-- The collections that are open behind an event. -/
def Node.level (n : Node) (level : Nat) : Nat :=
  match n with
  | .sequenceStart _ | .mappingStart _ => level + 1
  | .sequenceEnd | .mappingEnd => level - 1
  | _ => level

namespace Reader

variable {α β κ : Type} {d : Document} {p : Place} {w v : Walk} {i n k : Nat} {e : Node × Mark}

/-! ### Counting levels -/

theorem bind_eq_of_ok {r : Reader α} {f : α → Reader β} {a : α} (h : r p w = .ok a v) :
    (r >>= f) p w = f a p v := by
  show EStateM.bind (r p) (fun a => f a p) w = _
  rw [EStateM.bind, h]

theorem peek_eq_of_some (he : p.document.events[w.position]? = some e) : peek p w = .ok e w := by
  have hplace : (MonadReader.read : Reader Place) p w = .ok p w := rfl
  have hwalk : (get : Reader Walk) p w = .ok w w := rfl
  unfold peek
  rw [bind_eq_of_ok hplace, bind_eq_of_ok hwalk, he]
  rfl

/-- One event is stepped over. -/
theorem skipOpen_succ (he : p.document.events[i]? = some e) (level fuel jumps : Nat) :
    skipOpen level (fuel + 1) p ⟨i, jumps⟩ =
      if e.1.level level = 0 then .ok () ⟨i + 1, jumps⟩
      else skipOpen (e.1.level level) fuel p ⟨i + 1, jumps⟩ := by
  have hpeek : peek p ⟨i, jumps⟩ = .ok e ⟨i, jumps⟩ := peek_eq_of_some he
  have hadvance : advance p ⟨i, jumps⟩ = .ok () ⟨i + 1, jumps⟩ := rfl
  show (peek >>= fun e => advance >>= fun _ => if e.1.level level = 0 then pure ()
    else skipOpen (e.1.level level) fuel : Reader Unit) p ⟨i, jumps⟩ = _
  rw [bind_eq_of_ok hpeek, bind_eq_of_ok hadvance]
  split <;> rfl

/-- The `n` events from `i` on are a node: whatever is open around it, it is stepped over. -/
def SteppedOver (d : Document) (i n : Nat) : Prop :=
  i + n ≤ d.events.size ∧ ∀ ⦃p : Place⦄, p.document = d → ∀ level fuel jumps,
    skipOpen level (fuel + n) p ⟨i, jumps⟩ =
      if level = 0 then .ok () ⟨i + n, jumps⟩ else skipOpen level fuel p ⟨i + n, jumps⟩

/-- The `n` events from `i` on are the rest of a collection. -/
def Leaves (d : Document) (i n : Nat) : Prop :=
  i + n ≤ d.events.size ∧ ∀ ⦃p : Place⦄, p.document = d → ∀ level fuel jumps,
    skipOpen (level + 1) (fuel + n) p ⟨i, jumps⟩ =
      if level = 0 then .ok () ⟨i + n, jumps⟩ else skipOpen level fuel p ⟨i + n, jumps⟩

theorem steppedOver_single (he : d.events[i]? = some e) (hlevel : ∀ l, e.1.level l = l) :
    SteppedOver d i 1 := by
  obtain ⟨hi, -⟩ := Array.getElem?_eq_some_iff.mp he
  refine ⟨hi, fun p hp level fuel jumps => ?_⟩
  rw [skipOpen_succ (by rw [hp, he]), hlevel]

theorem leaves_end (he : d.events[i]? = some e) (hlevel : ∀ l, e.1.level l = l - 1) :
    Leaves d i 1 := by
  obtain ⟨hi, -⟩ := Array.getElem?_eq_some_iff.mp he
  refine ⟨hi, fun p hp level fuel jumps => ?_⟩
  rw [skipOpen_succ (by rw [hp, he]), hlevel, Nat.add_sub_cancel]

theorem SteppedOver.leaves (h : SteppedOver d i n) (hrest : Leaves d (i + n) k) :
    Leaves d i (n + k) := by
  refine ⟨by rw [← Nat.add_assoc]; exact hrest.1, fun p hp level fuel jumps => ?_⟩
  rw [Nat.add_comm n k, ← Nat.add_assoc, h.2 hp, if_neg (Nat.succ_ne_zero level), hrest.2 hp,
    Nat.add_assoc, Nat.add_comm k n]

theorem Leaves.steppedOver (he : d.events[i]? = some e) (hlevel : ∀ l, e.1.level l = l + 1)
    (h : Leaves d (i + 1) n) : SteppedOver d i (1 + n) := by
  refine ⟨by rw [← Nat.add_assoc]; exact h.1, fun p hp level fuel jumps => ?_⟩
  rw [Nat.add_comm 1 n, ← Nat.add_assoc, skipOpen_succ (by rw [hp, he]), hlevel,
    if_neg (Nat.succ_ne_zero level), h.2 hp, Nat.add_assoc, Nat.add_comm 1 n]

/-! ### What is read -/

/-- Where the reader succeeds, it has read a node. -/
def Passes (d : Document) (r : Reader α) : Prop :=
  ∀ ⦃p w a v⦄, p.document = d → r p w = .ok a v →
    ∃ n, v.position = w.position + n ∧ SteppedOver d w.position n

/-- Where the reader succeeds, it has read the rest of a collection. -/
def Closes (d : Document) (r : Reader α) : Prop :=
  ∀ ⦃p w a v⦄, p.document = d → r p w = .ok a v →
    ∃ n, v.position = w.position + n ∧ Leaves d w.position n

/-- What is read behind the first event of a node: the rest of a collection, or nothing. -/
def Completes (d : Document) (n : Node) (r : Reader α) : Prop :=
  ∀ ⦃p w a v⦄, p.document = d → r p w = .ok a v →
    ((∀ l, n.level l = l) ∧ v.position = w.position) ∨
      ((∀ l, n.level l = l + 1) ∧ ∃ k, v.position = w.position + k ∧ Leaves d w.position k)

theorem passes_node {r : Node → Mark → Reader α} (h : ∀ n m, Completes d n (r n m)) :
    Passes d (node r) := by
  intro p w a v hp hr
  obtain ⟨n, m, u, u', hevent, hu, hr, hv⟩ := exists_of_node_eq_ok hr
  rw [hp] at hevent hu hv
  rcases alias_or_here d w.position with ⟨id, m, halias, hbehind⟩ | ⟨horigin, hbehind⟩
  · -- one event, wherever its anchor leads
    exact ⟨1, hv.trans (hbehind _), steppedOver_single halias fun _ => rfl⟩
  · rw [horigin] at hevent hu
    rw [hbehind] at hv
    rcases h n m hp hr with ⟨hlevel, hend⟩ | ⟨hlevel, k, hend, hleaves⟩
    · exact ⟨1, by rw [hv, hend, hu], steppedOver_single hevent hlevel⟩
    · rw [hu] at hend hleaves
      exact ⟨1 + k, by rw [hv, hend, Nat.add_assoc], hleaves.steppedOver hevent hlevel⟩

theorem Passes.atItem {r : Reader α} (h : Passes d r) (index : Nat) : Passes d (atItem index r) :=
  fun p w a v hp hr => @h ⟨p.document, p.depth, some _⟩ w a v hp hr

theorem Passes.atMember {r : Reader α} (h : Passes d r) (text : Option String) :
    Passes d (atMember text r) :=
  fun p w a v hp hr => @h ⟨p.document, p.depth, some _⟩ w a v hp hr

theorem closes_foldItems {item : α → Reader α} (h : ∀ a, Passes d (item a)) (index : Nat) (a : α)
    (fuel : Nat) : Closes d (foldItems item index a fuel) := by
  induction fuel generalizing index a with
  | zero =>
    intro p w a' v hp hr
    cases hr
  | succ fuel ih =>
    intro p w a' v hp hr
    obtain ⟨e, _, hpeek, htail⟩ := exists_of_bind_eq_ok hr
    obtain ⟨hevent, rfl⟩ := exists_of_peek_eq_ok hpeek
    obtain ⟨n, m⟩ := e
    rw [hp] at hevent
    cases n with
    | sequenceEnd =>
      obtain ⟨_, w₁, hadvance, hpure⟩ := exists_of_bind_eq_ok htail
      cases hadvance
      cases hpure
      exact ⟨1, rfl, leaves_end hevent fun _ => rfl⟩
    | _ =>
      obtain ⟨b, w₁, hitem, hrest⟩ := exists_of_bind_eq_ok htail
      obtain ⟨n, hw₁, hn⟩ := (h a).atItem index hp hitem
      obtain ⟨k, hv, hk⟩ := ih (index + 1) b hp hrest
      rw [hw₁] at hv hk
      exact ⟨n + k, by rw [hv, Nat.add_assoc], hn.leaves hk⟩

theorem closes_foldMembers {key : Bool → Reader κ} {member : α → κ → Reader α}
    (hkey : ∀ first, Passes d (key first)) (hmember : ∀ a k, Passes d (member a k)) (first : Bool)
    (a : α) (fuel : Nat) : Closes d (foldMembers key member first a fuel) := by
  induction fuel generalizing first a with
  | zero =>
    intro p w a' v hp hr
    cases hr
  | succ fuel ih =>
    intro p w a' v hp hr
    obtain ⟨e, hevent, hturn⟩ := exists_of_foldMembers_eq_ok hr
    rw [hp] at hevent
    rcases hturn with ⟨hend, -, hv⟩ | ⟨-, text, x, b, w₁, w₂, hx, hb, hrest⟩
    · exact ⟨1, hv, leaves_end hevent fun _ => by rw [hend]; rfl⟩
    · -- a name, its value, and what follows them
      obtain ⟨n, hw₁, hn⟩ := hkey first hp hx
      obtain ⟨n', hw₂, hn'⟩ := (hmember a x).atMember text hp hb
      obtain ⟨k, hv, hk⟩ := ih false b hp hrest
      rw [hw₁] at hw₂ hn'
      rw [hw₂] at hv hk
      exact ⟨n + (n' + k), by rw [hv]; omega, hn.leaves (hn'.leaves hk)⟩

/-- A loop one level deeper, with enough fuel for all events. -/
theorem closes_sized {r : Nat → Reader α} (h : ∀ fuel, Closes d (r fuel)) (m : Mark) :
    Closes d (do deeper m (r (← size))) := by
  intro p w a v hp hr
  exact @h _ { p with depth := p.depth - 1 } w a v hp (exists_of_sized_eq_ok hr)

theorem closes_items {item : α → Reader α} (h : ∀ a, Passes d (item a)) (m : Mark) (a : α) :
    Closes d (items m item a) :=
  closes_sized (fun fuel => closes_foldItems h 0 a fuel) m

theorem closes_members {key : Bool → Reader κ} {member : α → κ → Reader α}
    (hkey : ∀ first, Passes d (key first)) (hmember : ∀ a k, Passes d (member a k)) (m : Mark)
    (a : α) : Closes d (members m key member a) :=
  closes_sized (fun fuel => closes_foldMembers hkey hmember true a fuel) m

theorem Passes.map {r : Reader α} (h : Passes d r) (f : α → β) : Passes d (f <$> r) := by
  intro p w b v hp hr
  obtain ⟨a, hr, -⟩ := exists_of_map_eq_ok hr
  exact h hp hr

theorem Passes.andReturn {r : Reader α} (h : Passes d r) (f : α → β) :
    Passes d (do return f (← r)) := by
  intro p w b v hp hr
  obtain ⟨a, u, hr, hpure⟩ := exists_of_bind_eq_ok hr
  cases hpure
  exact h hp hr

theorem Closes.andReturn {r : Reader α} (h : Closes d r) (f : α → β) :
    Closes d (do return f (← r)) := by
  intro p w b v hp hr
  obtain ⟨a, u, hr, hpure⟩ := exists_of_bind_eq_ok hr
  cases hpure
  exact h hp hr

/-! ### Nodes of any shape -/

theorem not_ok_mismatch (n : Node) (expected : String) (p : Place) (w : Walk) (a : α) (v : Walk) :
    mismatch n expected p w ≠ .ok a v := by
  intro h
  cases n with
  | scalar tag text style =>
    obtain ⟨_, _, -, h⟩ := exists_of_bind_eq_ok h
    cases h
  | _ => cases h

theorem completes_of_fails {n : Node} {r : Reader α} (h : ∀ p w a v, r p w ≠ .ok a v) :
    Completes d n r :=
  fun p w a v _ hr => (h p w a v hr).elim

theorem passes_text (expected : String) : Passes d (text expected) := by
  refine passes_node fun n m => ?_
  cases n with
  | scalar tag text style =>
    intro p w a v hp hr
    cases hr
    exact .inl ⟨fun _ => rfl, rfl⟩
  | _ => exact completes_of_fails (not_ok_mismatch _ expected)

theorem exists_of_anyScalar_eq_ok {wish : Wish} {tag : Option (List Char)} {text : List Char}
    {style : ScalarStyle} {x : Content} (h : anyScalar wish tag text style p w = .ok x v) :
    v = w ∧ ∃ f, found tag text style = .ok f ∧ ∀ s, f = .string s → x = .string s := by
  obtain ⟨f, u, hread, hkind⟩ := exists_of_bind_eq_ok h
  obtain ⟨hfound, rfl⟩ := exists_of_ofExcept_eq_ok hread
  cases f with
  | string s =>
    cases hkind
    refine ⟨rfl, _, hfound, fun s hs => ?_⟩
    cases hs
    rfl
  | null | bool | int | float =>
    cases hkind
    exact ⟨rfl, _, hfound, by simp⟩
  | _ => cases hkind

theorem passes_anyNode {wish : Wish} {onList onMap : Mark → Reader Content}
    (hlist : ∀ m, Closes d (onList m)) (hmap : ∀ m, Closes d (onMap m)) :
    Passes d (anyNode wish onList onMap) := by
  refine passes_node fun n m => ?_
  intro p w x v hp hr
  cases n with
  | void =>
    cases hr
    exact .inl ⟨fun _ => rfl, rfl⟩
  | scalar tag text style =>
    dsimp only at hr
    split at hr
    · cases hr
    · obtain ⟨rfl, -⟩ := exists_of_anyScalar_eq_ok hr
      exact .inl ⟨fun _ => rfl, rfl⟩
  | sequenceStart tag =>
    dsimp only at hr
    split at hr
    · cases hr
    · exact .inr ⟨fun _ => rfl, hlist m hp hr⟩
  | mappingStart tag =>
    dsimp only at hr
    split at hr
    · cases hr
    · exact .inr ⟨fun _ => rfl, hmap m hp hr⟩
  | _ => cases hr

/-- What is read as a value is stepped over. -/
theorem passes_value (fuel : Nat) : Passes d (value fuel) := by
  induction fuel with
  | zero =>
    intro p w x v hp hr
    cases hr
  | succ fuel ih =>
    refine Passes.map (passes_anyNode (fun m => ?_) fun m => ?_) finite
    · exact (closes_items (fun cs => ih.andReturn (· :: cs)) m []).andReturn
        fun cs => Content.list cs.reverse
    · exact (closes_members (fun _ => passes_text _)
        (fun ms k => ih.andReturn fun x => (Content.string k, x) :: ms) m []).andReturn
        fun ms => Content.map ms.reverse

theorem skip_of_steppedOver (h : SteppedOver p.document w.position n) :
    skip p w = .ok () ⟨w.position + n, w.jumps⟩ := by
  obtain ⟨hle, hskip⟩ := h
  have hturns : p.document.events.size + 1 = p.document.events.size + 1 - n + n := by omega
  show skipOpen 0 (p.document.events.size + 1) p w = _
  rw [hturns, hskip rfl, if_pos rfl]

/-- A node that is stepped over ends where it ends for one who reads it. -/
theorem lockstep_skip (fuel depth : Nat) :
    Lockstep (fun _ _ => True) skip (value fuel) d depth i := by
  intro path path' w w' v v' _ x hw hw' hskip hvalue
  obtain ⟨n, hv', hn⟩ := passes_value fuel rfl hvalue
  rw [hw', ← hw] at hv' hn
  rw [skip_of_steppedOver (p := ⟨d, depth, path⟩) hn] at hskip
  cases hskip
  exact ⟨hv'.symm, trivial⟩

end Reader
end KubeClient.Yaml

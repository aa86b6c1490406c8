import Sentinel.Control.RoundTrip
import Sentinel.Store.Timeline
import Sentinel.Store.Versions

/-! GET_RULE_VERSION and ENUM_RULES while other threads write the store. -/
namespace Sentinel.Queries

open Transition Bytes Codec Control Concurrent

/-- The commands that report on the store. -/
inductive Kind where
  | getRuleVersion
  | enumRules
  deriving DecidableEq

/-- A request for one of them, as its handler gets it. -/
structure Query where
  kind : Kind
  call : Call
  driver : Driver
  buffers : Buffers
  backed : call.Backed buffers

/-- The driver when the reads of the store see `views`, one after the other. -/
def Query.viewing (q : Query) (views : List View) : Driver :=
  { q.driver with view := fun i => views.getD i (q.driver.view i) }

/-- What the handler comes to. -/
def Query.reply (q : Query) (views : List View) : Outcome NtStatus Reply :=
  match q.kind with
  | .getRuleVersion => cmdGetRuleVersion q.call (q.viewing views) q.buffers
  | .enumRules => cmdEnumRules q.call (q.viewing views) q.buffers

/-- How many walks over the rules a handler makes; the rules of the last one it reports. -/
def Kind.walks : Kind → ℕ
  | .getRuleVersion => 1
  | .enumRules => 2

/-- The handler reads the store once more after `views`: its output has room, and no walk has
found the store closed or more rules than fit. -/
def Query.wants (q : Query) (views : List View) : Bool :=
  match q.kind, views with
  | .getRuleVersion, [] =>
    !decide (q.call.lacks (UInt32.ofNat (ioctlHeaderSize + Layout.ruleVersion.size)))
  | .getRuleVersion, [v] => v.images.isSome
  | .getRuleVersion, [_, _] => true
  | .enumRules, [] => true
  | .enumRules, [v] =>
    match v.images with
    | none => false
    | some images => !decide (q.call.lacks (enumTotal (enumCount images)))
  | .enumRules, [_, v] =>
    match v.images with
    | none => false
    | some images =>
      match enumFill q.call images (ioctlHeaderSize + enumHeaderSize)
        (q.call.outLen - UInt32.ofNat (ioctlHeaderSize + enumHeaderSize)) 0 q.buffers with
      | .ok (_, false, _) => true
      | _ => false
  | _, _ => false

/-- A request that the handler works on, with what its reads have seen. A ghost: every snapshot
that has been current since the handler began. -/
structure Pending where
  query : Query
  views : List View
  seen : List SnapId

/-- The consumer thread dispatches one request at a time. -/
structure State where
  store : Concurrent.State
  call : Option Pending

/-- `SkRuleStoreDefaultPolicy`. -/
def defaultPolicy (s : Concurrent.State) : UInt32 :=
  s.current.elim verdictPermit fun id => (s.snap id).defaultPolicy

/-- What `SkRuleStoreEnum`, `SkRuleStoreVersion` and `SkRuleStoreDefaultPolicy` read. -/
structure Shows (s : Concurrent.State) (v : View) : Prop where
  images : v.images.map (List.map RuleImage.rule) =
    if s.inited then s.current.map fun id => (s.snap id).rules else none
  version : v.version = s.version
  defaultPolicy : v.defaultPolicy = defaultPolicy s

namespace Pending

def read (p : Pending) (v : View) : Pending := { p with views := p.views ++ [v] }

def observe (p : Pending) (s : Concurrent.State) : Pending :=
  { p with seen := s.current.toList ++ p.seen }

/-- The call has read the rules that it reports and goes on to their version. -/
def Between (p : Pending) : Prop :=
  p.query.kind.walks ≤ p.views.length ∧ p.query.wants p.views = true

end Pending

inductive Action where
  | store (a : Concurrent.Action)
  | begin (q : Query)
  | read (v : View)
  | complete

inductive Step : State → Action → State → Prop where
  | store {s : State} {a : Concurrent.Action} {t : Concurrent.State}
      (h : Concurrent.Step s.store a t) :
      Step s (.store a) { store := t, call := s.call.map (·.observe t) }
  | begin {s : State} {q : Query} (h : s.call = none) :
      Step s (.begin q) { s with call := some ⟨q, [], s.store.current.toList⟩ }
  /-- The rules are walked under `storeLock`. -/
  | read {s : State} {p : Pending} {v : View} (h : s.call = some p)
      (hw : p.query.wants p.views = true)
      (hl : p.views.length < p.query.kind.walks → s.store.holder = .idle)
      (hv : Shows s.store v) :
      Step s (.read v) { s with call := some (p.read v) }
  | complete {s : State} {p : Pending} (h : s.call = some p)
      (hw : p.query.wants p.views = false) :
      Step s .complete { s with call := none }

def system : System State Action where
  init s := Concurrent.system.init s.store ∧ s.call = none
  step := Step

/-- The reply says what a snapshot holds. -/
def Kind.Describes : Kind → Reply → Snapshot → Prop
  | .getRuleVersion, a, snap =>
    (Layout.ruleVersion.read a.buffers.out ioctlHeaderSize : Outcome NtStatus _) =
      .ok (snap.version, UInt32.ofNat snap.rules.length, snap.defaultPolicy)
  | .enumRules, a, snap =>
    (u64.read a.buffers.out (ioctlHeaderSize + enumVersionOffset) : Outcome NtStatus _) =
      .ok snap.version ∧
    (u32.read a.buffers.out (ioctlHeaderSize + enumCountOffset) : Outcome NtStatus _) =
      .ok (UInt32.ofNat snap.rules.length) ∧
    ∃ images : List RuleImage, images.map RuleImage.rule = snap.rules ∧
      a.records snap.rules.length = enumWires images

/-- While a call stands between its reads, no other thread publishes a snapshot or shuts the
store down. -/
def Undisturbed (s : State) : Action → Prop
  | .store a => ∀ p, s.call = some p → p.Between →
    ∀ t, Concurrent.Step s.store a t → t.current = s.store.current
  | .begin _ | .read _ | .complete => True

variable {s t : State} {act : Action} {q : Query} {p : Pending} {v : View} {i : SnapId}
  {views : List View} {a : Reply} {c : Call} {d : Driver} {b : Buffers}
  {store : Concurrent.State}

/-! ### The replies -/

theorem fixedReply_ok {α : Type} {k : Codec α} {x : α} (hb : c.Backed b)
    (hl : ¬ c.lacks (UInt32.ofNat (ioctlHeaderSize + k.size)))
    (hsize : ioctlHeaderSize + k.size < UInt32.size) :
    ∃ a, fixedReply c d b (k.encode x) = .ok a ∧ a.status = statusSuccess ∧
      (k.read a.buffers.out ioctlHeaderSize : Outcome NtStatus _) = .ok x := by
  obtain ⟨hroom, hle⟩ := room_of_not_lacks hb hl
  rw [UInt32.toNat_ofNat_of_lt' hsize] at hle
  have hheader : ioctlHeaderSize ≤ c.outLen.toNat := by omega
  obtain ⟨b₁, h₁, hb₁, -⟩ := @Call.Room.echoHeader c b
    (UInt32.ofNat (ioctlHeaderSize + k.size)) hroom hheader
  have hput := @Call.Room.put c b₁ ioctlHeaderSize (k.encode x) hb₁
    (by rw [k.length_encode]; exact hle)
  rw [fixedReply, k.length_encode, if_neg hl, h₁, Outcome.ok_bind, hput]
  exact ⟨_, rfl, rfl, read_put hb₁ hle⟩

/-- GET_RULE_VERSION with room for its output, in a store that is open. -/
theorem cmdGetRuleVersion_ok {images : List RuleImage} (hb : c.Backed b)
    (hl : ¬ c.lacks (UInt32.ofNat (ioctlHeaderSize + Layout.ruleVersion.size)))
    (hi : (d.view 0).images = some images) :
    ∃ a, cmdGetRuleVersion c d b = .ok a ∧ a.status = statusSuccess ∧
      (Layout.ruleVersion.read a.buffers.out ioctlHeaderSize : Outcome NtStatus _) =
        .ok ((d.view 1).version, UInt32.ofNat images.length, (d.view 2).defaultPolicy) := by
  rw [cmdGetRuleVersion, if_neg hl, hi, ← enumCount_eq]
  exact fixedReply_ok hb hl (by decide)

theorem cmdGetRuleVersion_success (hb : c.Backed b) (h : cmdGetRuleVersion c d b = .ok a)
    (hs : ntSuccess a.status = true) :
    ¬ c.lacks (UInt32.ofNat (ioctlHeaderSize + Layout.ruleVersion.size)) ∧
      ∃ images, (d.view 0).images = some images ∧
      (Layout.ruleVersion.read a.buffers.out ioctlHeaderSize : Outcome NtStatus _) =
        .ok ((d.view 1).version, UInt32.ofNat images.length, (d.view 2).defaultPolicy) := by
  by_cases hl : c.lacks (UInt32.ofNat (ioctlHeaderSize + Layout.ruleVersion.size))
  · rw [cmdGetRuleVersion, if_pos hl] at h
    cases h
    cases hs
  cases hi : (d.view 0).images with
  | none =>
    rw [cmdGetRuleVersion, if_neg hl, hi] at h
    cases h
    cases hs
  | some images =>
    obtain ⟨a', ha', -, hread⟩ := cmdGetRuleVersion_ok hb hl hi
    obtain rfl := Outcome.ok.inj (h.symm.trans ha')
    exact ⟨hl, images, rfl, hread⟩

/-! ### One read -/

theorem version_of_current {i : SnapId} (h : store.current = some i) :
    store.version = (store.snap i).version := by
  rw [Concurrent.State.version, h]
  rfl

theorem defaultPolicy_of_current {i : SnapId} (h : store.current = some i) :
    defaultPolicy store = (store.snap i).defaultPolicy := by
  rw [defaultPolicy, h]
  rfl

theorem Shows.walked {l : List RuleImage} (h : Shows store v) (hl : v.images = some l) :
    ∃ c, store.current = some c ∧ l.map RuleImage.rule = (store.snap c).rules := by
  have hi := h.images
  rw [hl, Option.map_some] at hi
  split at hi
  · obtain ⟨c, hc, hr⟩ := Option.map_eq_some_iff.mp hi.symm
    exact ⟨c, hc, hr.symm⟩
  · cases hi

/-- The reads so far agree with one snapshot of the call, which is current for as long as the
call has more to read. -/
def Pending.Covers (p : Pending) (s : Concurrent.State) : Prop :=
  match p.query.kind with
  | .getRuleVersion => ∀ v l, p.views[0]? = some v → v.images = some l →
      ∃ a ∈ p.seen, (p.Between → s.current = some a) ∧ l.length = (s.snap a).rules.length ∧
        (∀ v, p.views[1]? = some v → v.version = (s.snap a).version) ∧
        ∀ v, p.views[2]? = some v → v.defaultPolicy = (s.snap a).defaultPolicy
  | .enumRules => ∀ v l, p.views[1]? = some v → v.images = some l →
      ∃ a ∈ p.seen, (p.Between → s.current = some a) ∧
        l.map RuleImage.rule = (s.snap a).rules ∧
        ∀ v, p.views[2]? = some v → v.version = (s.snap a).version

theorem covers_read (hw : p.query.wants p.views = true) (hv : Shows store v)
    (hseen : ∀ i, store.current = some i → i ∈ p.seen) (hc : p.Covers store) :
    (p.read v).Covers store := by
  obtain ⟨q, views, seen⟩ := p
  cases hk : q.kind with
  | getRuleVersion =>
    simp only [Pending.Covers, Pending.read, hk] at hc ⊢
    match views with
    | [] =>
      intro v' l hv' hl
      obtain rfl : v = v' := Option.some.inj hv'
      obtain ⟨c, hcur, hmap⟩ := hv.walked hl
      refine ⟨c, hseen c hcur, fun _ => hcur, ?_, by simp, by simp⟩
      rw [← hmap, List.length_map]
    | [v₀] =>
      intro v' l hv' hl
      obtain ⟨a, ha, hcur, hlen, -, -⟩ := hc v' l hv' hl
      have hcur := hcur ⟨by rw [hk]; exact le_rfl, hw⟩
      refine ⟨a, ha, fun _ => hcur, hlen, ?_, by simp⟩
      intro v' hv'
      obtain rfl : v = v' := Option.some.inj hv'
      exact hv.version.trans (version_of_current hcur)
    | [v₀, v₁] =>
      intro v' l hv' hl
      obtain ⟨a, ha, hcur, hlen, hversion, -⟩ := hc v' l hv' hl
      have hcur := hcur ⟨by rw [hk]; exact Nat.le_succ 1, hw⟩
      refine ⟨a, ha, fun _ => hcur, hlen, hversion, ?_⟩
      intro v' hv'
      obtain rfl : v = v' := Option.some.inj hv'
      exact hv.defaultPolicy.trans (defaultPolicy_of_current hcur)
    | _ :: _ :: _ :: views =>
      simp only [Query.wants, hk] at hw
      cases hw
  | enumRules =>
    simp only [Pending.Covers, Pending.read, hk] at hc ⊢
    match views with
    | [] =>
      intro v' l hv' hl
      cases hv'
    | [v₀] =>
      intro v' l hv' hl
      obtain rfl : v = v' := Option.some.inj hv'
      obtain ⟨c, hcur, hmap⟩ := hv.walked hl
      exact ⟨c, hseen c hcur, fun _ => hcur, hmap, by simp⟩
    | [v₀, v₁] =>
      intro v' l hv' hl
      obtain ⟨a, ha, hcur, hmap, -⟩ := hc v' l hv' hl
      have hcur := hcur ⟨by rw [hk]; exact le_rfl, hw⟩
      refine ⟨a, ha, fun _ => hcur, hmap, ?_⟩
      intro v' hv'
      obtain rfl : v = v' := Option.some.inj hv'
      exact hv.version.trans (version_of_current hcur)
    | _ :: _ :: _ :: views =>
      simp only [Query.wants, hk] at hw
      cases hw

/-! ### The runs -/

/-- What holds of the call at work. -/
structure Consistent (p : Pending) (s : Concurrent.State) : Prop where
  current : ∀ i, s.current = some i → i ∈ p.seen
  published : ∀ i ∈ p.seen, i ∈ s.published
  covers : p.Covers s

theorem consistent_begin (ht : Timeline store) :
    Consistent ⟨q, [], store.current.toList⟩ store where
  current i hi := by simp [hi]
  published := by
    intro i hi
    exact ht.current_mem (Option.mem_toList.mp hi)
  covers := by
    cases hk : q.kind <;> simp [Pending.Covers, hk]

theorem consistent_read (hw : p.query.wants p.views = true) (hv : Shows store v)
    (h : Consistent p store) : Consistent (p.read v) store where
  current := h.current
  published := h.published
  covers := covers_read hw hv h.current h.covers

/-- What has been published stays as it is, and the snapshot of the call stays current. -/
theorem Pending.Covers.observe {u : Concurrent.State} (hs : ∀ i ∈ p.seen, u.snap i = store.snap i)
    (hcur : p.Between → u.current = store.current) (h : p.Covers store) :
    (p.observe u).Covers u := by
  cases hk : p.query.kind with
  | getRuleVersion =>
    simp only [Pending.Covers, Pending.observe, hk] at h ⊢
    intro v l hv hl
    obtain ⟨a, ha, hb, hrest⟩ := h v l hv hl
    exact ⟨a, List.mem_append_right _ ha, fun hw => (hcur hw).trans (hb hw), by rwa [hs a ha]⟩
  | enumRules =>
    simp only [Pending.Covers, Pending.observe, hk] at h ⊢
    intro v l hv hl
    obtain ⟨a, ha, hb, hrest⟩ := h v l hv hl
    exact ⟨a, List.mem_append_right _ ha, fun hw => (hcur hw).trans (hb hw), by rwa [hs a ha]⟩

theorem consistent_store {u : Concurrent.State} {x : Concurrent.Action}
    (hs : Concurrent.Step store x u) (hg : p.Between → u.current = store.current)
    (ht : Timeline store) (hu : Timeline u) (h : Consistent p store) :
    Consistent (p.observe u) u where
  current := by
    intro i hi
    exact List.mem_append_left _ (Option.mem_toList.mpr hi)
  published := by
    intro i hi
    rcases List.mem_append.mp hi with hi | hi
    · exact hu.current_mem (Option.mem_toList.mp hi)
    · obtain ⟨newer, hnew⟩ := published_step hs
      rw [hnew]
      exact List.mem_append_right _ (h.published i hi)
  covers := by
    refine h.covers.observe (fun i hi => ?_) hg
    exact (snap_step hs (ht.published (h.published i hi))).2

structure Sound (s : State) : Prop where
  store : Concurrent.system.Reachable s.store
  call : ∀ p, s.call = some p → Consistent p s.store

theorem sound_init (h : system.init s) : Sound s where
  store := .of_init h.1
  call p hp := by
    rw [h.2] at hp
    cases hp

theorem sound_step (hs : (system.restrict Undisturbed).step s act t) (h : Sound s) : Sound t := by
  obtain ⟨hr, hc⟩ := h
  obtain ⟨hg, hs⟩ := hs
  have ht := (timeline_reachable hr).2
  cases hs with
  | @store x u hst =>
    have hr' := hr.step hst
    refine ⟨hr', fun p hp => ?_⟩
    obtain ⟨p', hp', rfl⟩ := Option.map_eq_some_iff.mp hp
    exact consistent_store hst (fun hb => hg p' hp' hb u hst) ht (timeline_reachable hr').2
      (hc p' hp')
  | begin =>
    refine ⟨hr, fun p hp => ?_⟩
    obtain rfl := Option.some.inj hp
    exact consistent_begin ht
  | @read p v hcall hw hl hv =>
    refine ⟨hr, fun p' hp => ?_⟩
    obtain rfl := Option.some.inj hp
    exact consistent_read hw hv (hc p hcall)
  | complete =>
    refine ⟨hr, fun p' hp => ?_⟩
    cases hp

theorem sound_reachable (h : (system.restrict Undisturbed).Reachable s) : Sound s :=
  System.Reachable.invariant (M := system.restrict Undisturbed) sound_init sound_step h

/-- A handler that reads no more and reports a success has made three reads. -/
theorem Query.three_reads (hw : q.wants views = false) (ha : q.reply views = .ok a)
    (hs : ntSuccess a.status = true) : ∃ v₀ v₁ v₂ rest, views = v₀ :: v₁ :: v₂ :: rest := by
  match views with
  | [] =>
    cases hk : q.kind with
    | getRuleVersion =>
      simp only [Query.reply, hk] at ha
      have hl := (cmdGetRuleVersion_success q.backed ha hs).1
      simp only [Query.wants, hk, decide_eq_false hl] at hw
      cases hw
    | enumRules => simp [Query.wants, hk] at hw
  | [v] =>
    cases hk : q.kind with
    | getRuleVersion =>
      simp only [Query.reply, hk] at ha
      obtain ⟨-, images, himages, -⟩ := cmdGetRuleVersion_success q.backed ha hs
      have himages : v.images = some images := himages
      simp [Query.wants, hk, himages] at hw
    | enumRules =>
      simp only [Query.reply, hk] at ha
      obtain ⟨counted, filled, hfits⟩ := cmdEnumRules_success ha hs
      have hcounted : v.images = some counted := hfits.view₀
      have hl := (not_lacks_iff (v.bound _ hcounted)).mpr ⟨hfits.out, hfits.first⟩
      simp [Query.wants, hk, hcounted, hl] at hw
  | [v₀, v₁] =>
    cases hk : q.kind with
    | getRuleVersion => simp [Query.wants, hk] at hw
    | enumRules =>
      simp only [Query.reply, hk] at ha
      obtain ⟨counted, filled, hfits⟩ := cmdEnumRules_success ha hs
      have hfilled : v₁.images = some filled := hfits.view₁
      have hfirst := hfits.first
      have hsecond := hfits.second
      have hremaining := toNat_remaining (c := q.call) (by omega)
      have hfill := @enumFill_fits q.call q.buffers (ioctlHeaderSize + enumHeaderSize) filled
        (q.call.outLen - UInt32.ofNat (ioctlHeaderSize + enumHeaderSize)) 0
        (q.backed hfits.out) (by omega) (by omega)
      simp only [Query.wants, hk, hfilled, hfill] at hw
      cases hw
  | v₀ :: v₁ :: v₂ :: rest => exact ⟨v₀, v₁, v₂, rest, rfl⟩

/-- A successful reply after reads that agree with one snapshot. -/
theorem Pending.Covers.describes (h : p.Covers store) (hw : p.query.wants p.views = false)
    (ha : p.query.reply p.views = .ok a) (hs : ntSuccess a.status = true) :
    ∃ i ∈ p.seen, p.query.kind.Describes a (store.snap i) := by
  obtain ⟨q, views, seen⟩ := p
  obtain ⟨v₀, v₁, v₂, rest, rfl⟩ := Query.three_reads hw ha hs
  cases hk : q.kind with
  | getRuleVersion =>
    simp only [Pending.Covers, hk] at h
    simp only [Query.reply, hk] at ha
    obtain ⟨-, images, himages, hread⟩ := cmdGetRuleVersion_success q.backed ha hs
    obtain ⟨i, hi, -, hlen, hversion, hpolicy⟩ := h v₀ images rfl himages
    refine ⟨i, hi, ?_⟩
    rw [Kind.Describes, ← hlen, ← hversion v₁ rfl, ← hpolicy v₂ rfl]
    exact hread
  | enumRules =>
    simp only [Pending.Covers, hk] at h
    simp only [Query.reply, hk] at ha
    obtain ⟨filled, hfilled, hr⟩ := cmdEnumRules_describes q.backed ha hs
    obtain ⟨i, hi, -, hmap, hversion⟩ := h v₁ filled rfl hfilled
    have hlen : (store.snap i).rules.length = filled.length := by rw [← hmap, List.length_map]
    refine ⟨i, hi, ?_⟩
    rw [Kind.Describes, hlen, ← hversion v₂ rfl]
    exact ⟨hr.version, hr.count, filled, hmap, hr.wires⟩

/-- When no snapshot is published or taken away between the reads of a call, a successful reply
describes one snapshot that was current during the call. -/
theorem replies_consistent (h : (system.restrict Undisturbed).Reachable s) : ∀ p a,
    s.call = some p → p.query.wants p.views = false → p.query.reply p.views = .ok a →
    ntSuccess a.status = true →
    ∃ i ∈ p.seen, p.query.kind.Describes a (s.store.snap i) := by
  intro p a hp hw ha hs
  exact ((sound_reachable h).call p hp).covers.describes hw ha hs

/-- A request for 40 bytes. -/
def smallQuery (kind : Kind) : Query where
  kind := kind
  call := ⟨0, true, 40⟩
  driver := emptyDriver
  buffers := ⟨.replicate 40 0, none⟩
  backed := by
    have hlen : (List.replicate 40 (0 : UInt8)).length = 40 := List.length_replicate
    exact fun _ => ⟨rfl, le_of_le_of_eq (by decide) hlen.symm, hlen.ge⟩

/-- The store of `SkRuleStoreInit`, and after another thread has added a rule. -/
def viewBefore : View := emptyDriver.view 0

def viewAfter : View where
  images := some [⟨Concurrent.blockAll, .replicate 2 0, .replicate 4 0⟩]
  version := 1
  defaultPolicy := verdictPermit
  bound := by
    rintro l hl
    cases hl
    decide

theorem shows_before : Shows (.start .active rateTableEmpty) viewBefore := ⟨rfl, rfl, rfl⟩

theorem shows_after : Shows ruleAdded viewAfter := ⟨by decide, by decide, by decide⟩

/-- The store of `SkRuleStoreInit` with a call at work. -/
def fresh (call : Option Pending) : State := ⟨.start .active rateTableEmpty, call⟩

/-- Another thread adds a rule while a call is at work. -/
theorem rule_added {G : State → Action → Prop} (p : Pending)
    (hG : ∀ x seen a, G ⟨x, some { p with seen := seen }⟩ (.store a)) :
    ∃ as, (system.restrict G).Run (fresh (some p)) as
      ⟨ruleAdded, some { p with seen := 1 :: 0 :: 0 :: 0 :: p.seen }⟩ := by
  have hcall : Concurrent.Step (.start .active rateTableEmpty)
      (.call (.add (some Concurrent.blockAll)) true true)
      ((State.start .active rateTableEmpty).begin (.add (some Concurrent.blockAll)) true true) :=
    .call rfl
  exact ⟨_, .head ⟨hG _ _ _, .store hcall⟩ <| .head ⟨hG _ _ _, .store .advance⟩ <|
    .head ⟨hG _ _ _, .store .advance⟩ <| .head ⟨hG _ _ _, .store .advance⟩ .refl⟩

/-- A rule is added before the rules are counted, and a reader comes between the later reads. -/
theorem replies_consistent_ruleAdded : ∃ (s : State) (p : Pending) (a : Reply), s.call = some p ∧
    p.query.reply p.views = .ok a ∧ (∃ i ∈ p.seen, p.query.kind.Describes a (s.store.snap i)) ∧
    (Layout.ruleVersion.read a.buffers.out ioctlHeaderSize : Outcome NtStatus _) =
      .ok (1, 1, verdictPermit) := by
  let q := smallQuery .getRuleVersion
  let added := ruleAdded.advance.advance
  have hbefore : ∀ x seen a, Undisturbed ⟨x, some ⟨q, [], seen⟩⟩ (.store a) := by
    intro x seen a p hp hb
    obtain rfl := Option.some.inj hp
    exact absurd hb.1 (Nat.not_succ_le_zero 0)
  have hread : ∀ {x : Concurrent.State} {views : List View} {seen : List SnapId},
      q.wants views = true → (views.length < 1 → x.holder = .idle) → Shows x viewAfter →
      (system.restrict Undisturbed).step ⟨x, some ⟨q, views, seen⟩⟩ (.read viewAfter)
        ⟨x, some ⟨q, views ++ [viewAfter], seen⟩⟩ := by
    intro x views seen hw hl hv
    exact ⟨trivial, @Step.read ⟨x, some ⟨q, views, seen⟩⟩ _ _ rfl hw hl hv⟩
  obtain ⟨as, hadd⟩ := rule_added ⟨q, [], [0]⟩ hbefore
  have hinit : (system.restrict Undisturbed).Reachable (fresh (some ⟨q, [], [0]⟩)) :=
    .step (.of_init ⟨⟨.active, rateTableEmpty, rfl⟩, rfl⟩)
      (⟨trivial, .begin rfl⟩ : (system.restrict Undisturbed).step (fresh none) (.begin q) _)
  have h₀ : (system.restrict Undisturbed).Reachable
      ⟨added, some ⟨q, [], [1, 1, 1, 0, 0, 0, 0]⟩⟩ :=
    ((hinit.run hadd).step ⟨hbefore _ _ _, .store .advance⟩).step
      ⟨hbefore _ _ _, .store .advance⟩
  have hshows : Shows added viewAfter := ⟨by decide, by decide, by decide⟩
  have hshows' : Shows added.acquire viewAfter := ⟨by decide, by decide, by decide⟩
  have h₁ : (system.restrict Undisturbed).Reachable
      ⟨added, some ⟨q, [viewAfter], [1, 1, 1, 0, 0, 0, 0]⟩⟩ :=
    h₀.step (hread (by decide) (fun _ => rfl) hshows)
  have hacquire : (system.restrict Undisturbed).step
      ⟨added, some ⟨q, [viewAfter], [1, 1, 1, 0, 0, 0, 0]⟩⟩ (.store .acquire)
      ⟨added.acquire, some ⟨q, [viewAfter], [1, 1, 1, 1, 0, 0, 0, 0]⟩⟩ := by
    refine ⟨fun p hp hb t ht => ?_, .store .acquire⟩
    cases ht
    rfl
  have h₂ := h₁.step hacquire
  have h₃ := h₂.step (hread rfl (fun _ => rfl) hshows')
  have h₄ := h₃.step (hread rfl (fun _ => rfl) hshows')
  obtain ⟨a, ha, hs, hversion⟩ := @cmdGetRuleVersion_ok _
    (q.viewing [viewAfter, viewAfter, viewAfter]) _ _ q.backed (by decide) rfl
  let p : Pending := ⟨q, [viewAfter, viewAfter, viewAfter], [1, 1, 1, 1, 0, 0, 0, 0]⟩
  exact ⟨⟨added.acquire, some p⟩, p, a, rfl, ha,
    replies_consistent h₄ p a rfl rfl ha (by rw [hs]; rfl), hversion⟩

theorem read_added {p : Pending} (hw : p.query.wants p.views = true)
    (hl : ¬ p.views.length < p.query.kind.walks) :
    Step ⟨ruleAdded, some p⟩ (.read viewAfter) ⟨ruleAdded, some (p.read viewAfter)⟩ :=
  .read rfl hw (fun h => absurd h hl) shows_after

theorem read_fresh {p : Pending} (hw : p.query.wants p.views = true) :
    Step (fresh (some p)) (.read viewBefore) (fresh (some (p.read viewBefore))) :=
  .read rfl hw (fun _ => rfl) shows_before

/-- A successful reply of a reachable state that describes no snapshot of its call. -/
def Torn (kind : Kind) : Prop :=
  ∃ (s : State) (p : Pending) (a : Reply), system.Reachable s ∧ s.call = some p ∧
    p.query = smallQuery kind ∧ p.query.wants p.views = false ∧
    p.query.reply p.views = .ok a ∧ ntSuccess a.status = true ∧
    ∀ i ∈ p.seen, ¬ kind.Describes a (s.store.snap i)

/-- The version read after the rule has been added goes to the rules read before. -/
theorem replies_torn : Torn .getRuleVersion ∧ Torn .enumRules := by
  have hdiffer : ∀ i ∈ [1, 0, 0, 0, 0], (ruleAdded.snap i).version = 1 →
      UInt32.ofNat (ruleAdded.snap i).rules.length ≠ 0 := by decide
  have hbegin : ∀ kind, system.Reachable (fresh (some ⟨smallQuery kind, [], [0]⟩)) :=
    fun kind => .step (.of_init ⟨⟨.active, rateTableEmpty, rfl⟩, rfl⟩)
      (.begin rfl : Step (fresh none) (.begin (smallQuery kind)) _)
  constructor
  · have h₁ := (hbegin .getRuleVersion).step (read_fresh (by decide))
    obtain ⟨as, hr⟩ := @rule_added (fun _ _ => True)
      ((Pending.mk (smallQuery .getRuleVersion) [] [0]).read viewBefore) (fun _ _ _ => trivial)
    have h₂ := (h₁.run hr.of_restrict).step (read_added rfl (by decide))
    have h₃ := h₂.step (read_added rfl (by decide))
    obtain ⟨a, ha, hs, hread⟩ := @cmdGetRuleVersion_ok _
      ((smallQuery .getRuleVersion).viewing [viewBefore, viewAfter, viewAfter]) _ []
      (smallQuery .getRuleVersion).backed (by decide) rfl
    refine ⟨_, _, a, h₃, rfl, rfl, rfl, ha, by rw [hs]; rfl, ?_⟩
    intro i hi hd
    have he := Outcome.ok.inj (hd.symm.trans hread)
    have hseen : i ∈ [1, 0, 0, 0, 0] := hi
    have hversion : (ruleAdded.snap i).version = 1 := congrArg Prod.fst he
    have hcount : UInt32.ofNat (ruleAdded.snap i).rules.length = 0 :=
      congrArg (fun x => x.2.1) he
    exact hdiffer i hseen hversion hcount
  · have h₁ := (hbegin .enumRules).step (read_fresh rfl)
    have h₂ := h₁.step (read_fresh (by decide))
    obtain ⟨as, hr⟩ := @rule_added (fun _ _ => True)
      (((Pending.mk (smallQuery .enumRules) [] [0]).read viewBefore).read viewBefore)
      (fun _ _ _ => trivial)
    have h₃ := (h₂.run hr.of_restrict).step (read_added rfl (by decide))
    have hfits : EnumFits (smallQuery .enumRules).call
        ((smallQuery .enumRules).viewing [viewBefore, viewBefore, viewAfter]) [] [] :=
      ⟨rfl, rfl, rfl, by decide, by decide⟩
    obtain ⟨a, ha, hreply⟩ := cmdEnumRules_fits ((smallQuery .enumRules).backed rfl) hfits
    refine ⟨_, _, a, h₃, rfl, rfl, rfl, ha, by rw [hreply.status]; rfl, ?_⟩
    rintro i hi ⟨hversion, hcount, -⟩
    have hseen : i ∈ [1, 0, 0, 0, 0] := hi
    have hcount' := Outcome.ok.inj (hcount.symm.trans hreply.count)
    exact hdiffer i hseen (Outcome.ok.inj (hversion.symm.trans hreply.version)) hcount'

end Sentinel.Queries

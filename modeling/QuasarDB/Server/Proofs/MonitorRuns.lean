import QuasarDB.Server.Monitor
import QuasarDB.Server.Proofs.CatalogRegistry

set_option autoImplicit false

/-! # Missed heartbeats

The monitor counts the misses of a storage id, and the history tells how often the node has failed
since it was created. The count is not larger, unless a node is created under an id that still has
misses of the node before it. -/

namespace QuasarDB.Server

open Core Prog

namespace Monitor

/-! ## The history -/

/-- The probe pings the node, without success. -/
def Misses (id : String) (reports : List (String × Report)) : Bool :=
  reports.any fun entry => entry.1 = id && entry.2 ≠ .answered

/-- How many probes, up to the last one, have all pinged the node of the id without success since it
    was created. -/
def streak (id : String) : List Heartbeat → Nat
  | [] => 0
  | .created other :: older => if other = id then 0 else streak id older
  | .dropped other :: older => if other = id then 0 else streak id older
  | .probed reports :: older => if Misses id reports then streak id older + 1 else 0

/-- The monitor restarts a node, or marks it. -/
def Report.Acts (what : Report) : Prop := what = .restarted ∨ what = .down

/-- A node is restarted or marked only after enough probes without success. -/
def Justified (threshold : Nat) (history : List Heartbeat) : Prop :=
  ∀ reports older, .probed reports :: older <:+ history → ∀ id what, (id, what) ∈ reports →
    Report.Acts what → threshold ≤ streak id (.probed reports :: older)

section History

variable {threshold : Nat} {id other : String} {what : Report} {reports : List (String × Report)}
  {older : List Heartbeat}

theorem Justified.tail {heartbeat : Heartbeat} (h : Justified threshold (heartbeat :: older)) :
    Justified threshold older :=
  fun reports rest hsuffix => h reports rest (hsuffix.trans (List.suffix_cons _ _))

theorem Justified.cons {heartbeat : Heartbeat} (h : Justified threshold older)
    (hheartbeat : ∀ reports, heartbeat = .probed reports → ∀ id what, (id, what) ∈ reports →
      Report.Acts what → threshold ≤ streak id (.probed reports :: older)) :
    Justified threshold (heartbeat :: older) := by
  intro reports rest hsuffix
  rcases List.suffix_cons_iff.1 hsuffix with heq | hsuffix
  · cases heq
    exact hheartbeat reports rfl
  · exact h reports rest hsuffix

/-- A further report of a probe takes no miss back. -/
theorem streak_report_le : streak id (.probed reports :: older) ≤
    streak id (.probed (reports ++ [(other, what)]) :: older) := by
  rw [streak]
  split
  next hmisses =>
    have hmore : Misses id (reports ++ [(other, what)]) = true := by
      rw [Misses, List.any_append, ← Misses, hmisses, Bool.true_or]
    rw [streak, if_pos hmore]
  next => exact Nat.zero_le _

theorem streak_report_self (h : what ≠ .answered) :
    streak id (.probed (reports ++ [(id, what)]) :: older) = streak id older + 1 := by
  have hmisses : Misses id (reports ++ [(id, what)]) = true := by
    simp [Misses, h]
  rw [streak, if_pos hmisses]

theorem Justified.report (h : Justified threshold (.probed reports :: older))
    (hacts : Report.Acts what → threshold ≤ streak id older + 1) :
    Justified threshold (.probed (reports ++ [(id, what)]) :: older) := by
  refine h.tail.cons ?_
  rintro _ ⟨⟩ other that hthat hthatActs
  rcases List.mem_append.1 hthat with hthat | hthat
  · exact (h reports older (List.suffix_refl _) other that hthat hthatActs).trans streak_report_le
  · cases List.mem_singleton.1 hthat
    have hanswered : what ≠ .answered := by
      rcases hthatActs with rfl | rfl <;> decide
    rw [streak_report_self hanswered]
    exact hacts hthatActs

end History

/-! ## Probes -/

/-- A probe that still has to come to some of the nodes. -/
structure Probing (threshold : Nat) (older : List Heartbeat) (ids : List String)
    (monitor : Monitor) : Prop where
  history : ∃ reports, monitor.history = .probed reports :: older
  dead : monitor.deadThreshold = threshold
  justified : Justified threshold monitor.history
  ahead : ∀ id ∈ ids, monitor.missed id ≤ streak id older
  behind : ∀ id, monitor.registry.hasNode id = true → id ∉ ids →
    monitor.missed id ≤ streak id monitor.history

section Probe

variable {threshold : Nat} {monitor monitor' : Monitor} {older : List Heartbeat} {id : String}
  {ids : List String} {what : Report}

/-- What the loop has done with a node, apart from its state in the registry. -/
structure Probed (threshold : Nat) (older : List Heartbeat) (id : String)
    (monitor monitor' : Monitor) : Prop where
  history : ∃ reports more, monitor.history = .probed reports :: older ∧
    monitor'.history = .probed (reports ++ more) :: older
  dead : monitor'.deadThreshold = threshold
  justified : Justified threshold monitor'.history
  missed : monitor'.missed id ≤ streak id monitor'.history
  others : ∀ other, other ≠ id → monitor'.missed other = monitor.missed other
  hasNode : ∀ other, monitor'.registry.hasNode other = monitor.registry.hasNode other

theorem streak_append_le (reports more : List (String × Report)) :
    streak id (.probed reports :: older) ≤ streak id (.probed (reports ++ more) :: older) := by
  induction more generalizing reports with
  | nil => rw [List.append_nil]
  | cons entry more ih =>
      obtain ⟨other, what⟩ := entry
      have hnext := ih (reports ++ [(other, what)])
      rw [List.append_assoc] at hnext
      exact streak_report_le.trans hnext

theorem Probing.next (h : Probing threshold older (id :: ids) monitor)
    (hprobed : Probed threshold older id monitor monitor') (hid : id ∉ ids) :
    Probing threshold older ids monitor' := by
  obtain ⟨reports, more, hhistory, hhistory'⟩ := hprobed.history
  refine ⟨⟨_, hhistory'⟩, hprobed.dead, hprobed.justified, fun other hother => ?_,
    fun other hnode hother => ?_⟩
  · have hne : other ≠ id := fun heq => hid (heq ▸ hother)
    rw [hprobed.others other hne]
    exact h.ahead other (List.mem_cons_of_mem _ hother)
  · by_cases hne : other = id
    · exact hne ▸ hprobed.missed
    · rw [hprobed.others other hne, hhistory']
      have hbehind := h.behind other (hprobed.hasNode other ▸ hnode)
        (List.not_mem_cons_of_ne_of_not_mem hne hother)
      rw [hhistory] at hbehind
      exact hbehind.trans (streak_append_le _ _)

theorem report_post {reports : List (String × Report)} {Q : Unit → Monitor → Prop}
    {E : Failure → Monitor → Prop} (h : monitor.history = .probed reports :: older)
    (hQ : Q () { monitor with history := .probed (reports ++ [(id, what)]) :: older }) :
    (Monitor.report id what).Post monitor Q E := by
  rw [Post, Monitor.report, run_modify, h]
  exact hQ

/-- A call on the registry that neither adds a node nor drops one. -/
theorem onRegistry_post {α : Type} {x : Prog Registry α} {Q : α → Monitor → Prop}
    {E : Failure → Monitor → Prop}
    (hx : x.Post monitor.registry (fun _ registry => ∀ i, registry.hasNode i = monitor.registry.hasNode i)
      (fun _ registry => ∀ i, registry.hasNode i = monitor.registry.hasNode i))
    (hQ : ∀ a registry, (∀ i, registry.hasNode i = monitor.registry.hasNode i) →
      Q a { monitor with registry })
    (hE : ∀ e registry, (∀ i, registry.hasNode i = monitor.registry.hasNode i) →
      E e { monitor with registry }) : (onRegistry x).Post monitor Q E :=
  Post.on (hx.mono hQ hE)

theorem probeNode_post {env : ProbeEnv} (h : Probing threshold older (id :: ids) monitor) :
    (probeNode env id).Post monitor (fun _ monitor' => Probed threshold older id monitor monitor')
      (fun _ monitor' => Justified threshold monitor'.history) := by
  obtain ⟨reports, hhistory⟩ := h.history
  have hjustified := h.justified
  rw [hhistory] at hjustified
  have hahead := h.ahead id List.mem_cons_self
  refine Post.ite (fun _ => ?_) (fun _ => Post.get_bind (Post.get_bind ?_))
  · -- the count of the node goes
    refine Post.bind (report_post hhistory (Post.bind (Post.modify (Post.bind ?_))))
    refine onRegistry_post (Router.updateNode_post.mono (fun _ _ hsame => hsame) (fun _ _ h => h.elim)) ?_
      (fun _ _ _ => ?_)
    · refine fun _ registry hsame => Post.pure
        ⟨⟨reports, _, hhistory, rfl⟩, h.dead, hjustified.report (by rintro (⟨⟨⟩⟩ | ⟨⟨⟩⟩)), ?_, ?_, hsame⟩
      · rw [missed, AList.lookup_erase]
        exact Nat.zero_le _
      · intro other hne
        rw [missed, AList.lookup_erase_ne hne, missed]
    · exact hjustified.report (by rintro (⟨⟨⟩⟩ | ⟨⟨⟩⟩))
  · have hcount : (monitor.missed id + 1) % 2 ^ 32 ≤ streak id older + 1 :=
      (Nat.mod_le _ _).trans (Nat.succ_le_succ hahead)
    refine Post.ite (fun hdead => ?_) (fun _ => ?_)
    · -- the node has missed enough probes
      rw [h.dead] at hdead
      have hstreak := hdead.trans hcount
      have hrestarted : Justified threshold
          (.probed (reports ++ [(id, .restarted)]) :: older) := hjustified.report fun _ => hstreak
      refine Post.bind (Post.modify (Post.bind (report_post hhistory (Post.bind ?_))))
      refine onRegistry_post Router.restartNode_post (fun restarted registry hsame => ?_)
        (fun _ _ _ => hrestarted)
      have hother : ∀ other, other ≠ id →
          ((monitor.missedHeartbeats.insert id 0).lookup other).getD 0 = monitor.missed other :=
        fun other hne => by rw [AList.lookup_insert_ne hne, missed]
      have hself : ((monitor.missedHeartbeats.insert id 0).lookup id).getD 0 = 0 := by
        rw [AList.lookup_insert, Option.getD_some]
      refine Post.ite (fun _ => Post.bind (report_post rfl (Post.bind ?_))) (fun _ => ?_)
      · have hdown : Justified threshold
            (.probed (reports ++ [(id, .restarted)] ++ [(id, .down)]) :: older) :=
          hrestarted.report fun _ => hstreak
        refine onRegistry_post (Router.updateNode_post.mono (fun _ _ hsame => hsame)
          (fun _ _ h => h.elim)) (fun _ registry' hsame' => ?_) (fun _ _ _ => hdown)
        have happend : reports ++ [(id, .restarted)] ++ [(id, .down)] =
            reports ++ [(id, Report.restarted), (id, .down)] := by
          rw [List.append_assoc]
          rfl
        rw [happend] at hdown ⊢
        refine Post.pure ⟨⟨reports, _, hhistory, rfl⟩, h.dead, hdown, ?_, hother, ?_⟩
        · exact hself.trans_le (Nat.zero_le _)
        · exact fun other => (hsame' other).trans (hsame other)
      · exact Post.pure ⟨⟨reports, _, hhistory, rfl⟩, h.dead, hrestarted, hself.trans_le (Nat.zero_le _),
          hother, hsame⟩
    · refine Post.bind (Post.modify (report_post hhistory ?_))
      refine ⟨⟨reports, _, hhistory, rfl⟩, h.dead,
        hjustified.report (by rintro (⟨⟨⟩⟩ | ⟨⟨⟩⟩)), ?_, ?_, fun _ => rfl⟩
      · rw [missed, AList.lookup_insert, streak_report_self (by decide)]
        exact hcount
      · intro other hne
        rw [missed, AList.lookup_insert_ne hne, missed]

theorem probeNodes_post {env : ProbeEnv} (h : Probing threshold older ids monitor)
    (hnodup : ids.Nodup) :
    (probeNodes env ids).Post monitor (fun _ monitor' => Probing threshold older [] monitor')
      (fun _ monitor' => Justified threshold monitor'.history) := by
  induction ids generalizing monitor with
  | nil => exact Post.pure h
  | cons id ids ih =>
      obtain ⟨hid, hrest⟩ := List.nodup_cons.1 hnodup
      refine Post.bind ((probeNode_post h).mono ?_ (fun _ _ hjustified => hjustified))
      exact fun _ monitor' hprobed => ih (h.next hprobed hid) hrest

end Probe

/-! ## Calls -/

/-- The monitor has counted no more misses of a node than there were. -/
structure Counting (threshold : Nat) (monitor : Monitor) : Prop where
  dead : monitor.deadThreshold = threshold
  justified : Justified threshold monitor.history
  counts : ∀ id, monitor.registry.hasNode id = true →
    monitor.missed id ≤ streak id monitor.history

/-- A node that is added has no misses of an earlier node of its id. -/
def AddsFresh (monitor : Monitor) (event : Event) : Prop :=
  ∀ id start, event = .create id start → monitor.registry.hasNode id = false →
    (monitor.registry.autoStartStorage = true → start = .started) → monitor.missed id = 0

section Calls

variable {threshold : Nat} {monitor : Monitor}

theorem probeOnce_post {env : ProbeEnv} (h : Counting threshold monitor) :
    (probeOnce env).Post monitor (fun _ monitor' => Counting threshold monitor')
      (fun _ monitor' => Justified threshold monitor'.history) := by
  refine Post.get_bind (Post.bind (Post.modify ?_))
  have hprobing : Probing threshold monitor.history monitor.registry.nodes.keys
      { monitor with history := .probed [] :: monitor.history } := by
    refine ⟨⟨[], rfl⟩, h.dead, h.justified.cons ?_, fun id hid => ?_, fun id hnode hid => ?_⟩
    · rintro _ ⟨⟩ id what ⟨⟩
    · exact h.counts id (AList.lookup_isSome.2 hid)
    · exact absurd (AList.lookup_isSome.1 hnode) hid
  refine (probeNodes_post hprobing monitor.registry.nodes.keys_nodup).mono ?_ (fun _ _ h => h)
  exact fun _ monitor' hdone => ⟨hdone.dead, hdone.justified,
    fun id hnode => hdone.behind id hnode List.not_mem_nil⟩

/-- A registry that has no other nodes than before. -/
theorem Counting.registry (h : Counting threshold monitor) {registry : Registry}
    (hnodes : ∀ id, registry.hasNode id = true → monitor.registry.hasNode id = true) :
    Counting threshold { monitor with registry } :=
  ⟨h.dead, h.justified, fun id hnode => h.counts id (hnodes id hnode)⟩

/-- A node is added when its process has started, if that is what the registry does. -/
theorem createNode_started {registry : Registry} {start : StartOutcome} {id : String} :
    (Registry.createNode start id).Post registry
      (fun created _ => created = true → registry.hasNode id = false →
        registry.autoStartStorage = true → start = .started)
      (fun failure _ => ∃ what, failure = .exception what) := by
  refine Post.get_bind (Post.ite (fun hhad => Post.pure ?_) (fun _ => Post.get_bind ?_))
  · intro _ hnone
    rw [hnone] at hhad
    cases hhad
  refine Post.bind (Post.modify (Post.bind (Post.get_bind ?_)))
  refine Post.ite (fun hauto => Post.pure ?_) (fun _ => ?_)
  · refine Post.bind (Post.modify (Post.pure fun _ _ hstarts => ?_))
    rw [hstarts] at hauto
    cases hauto
  cases start with
  | started =>
      refine Post.pure ?_
      rw [if_pos rfl]
      exact fun _ _ _ => rfl
  | notStarted => exact Post.pure fun hcreated => by cases hcreated
  | raises what => exact Post.throw ⟨what, rfl⟩

theorem createNode_post {start : StartOutcome} {id : String} (h : Counting threshold monitor)
    (hfresh : AddsFresh monitor (.create id start)) :
    (createNode start id).Post monitor (fun _ monitor' => Counting threshold monitor')
      (fun failure monitor' => Counting threshold monitor' ∧
        ∃ what, failure = .exception what) := by
  refine Post.get_bind (Post.bind (Post.on ?_))
  refine (Registry.createNode_post.and createNode_started).mono ?_ ?_
  · rintro created registry ⟨⟨hcreated, hothers⟩, hstarted⟩
    have hnodes : ∀ other, other ≠ id → registry.hasNode other = monitor.registry.hasNode other :=
      fun other hne => Registry.hasNode_congr (hothers other hne)
    refine Post.ite (fun hadded => ?_) (fun hadded => Post.pure (h.registry fun other hnode => ?_))
    · rw [Bool.and_eq_true, Bool.not_eq_true'] at hadded
      obtain ⟨rfl, hnone⟩ := hadded
      have hclean := hfresh id start rfl hnone (hstarted rfl hnone)
      refine Post.bind (Post.modify (Post.pure ⟨h.dead, h.justified.cons (by rintro _ ⟨⟩), ?_⟩))
      intro other hnode
      show monitor.missed other ≤ if id = other then 0 else streak other monitor.history
      by_cases hne : other = id
      · rw [hne, hclean]
        exact Nat.zero_le _
      · rw [if_neg (Ne.symm hne)]
        exact h.counts other (hnodes other hne ▸ hnode)
    · by_cases hne : other = id
      · subst hne
        have hhad : created = true := hcreated.1 hnode
        simpa [hhad] using hadded
      · exact hnodes other hne ▸ hnode
  · rintro failure registry ⟨⟨_, _, hsame⟩, hfailure⟩
    refine ⟨h.registry fun other hnode => ?_, hfailure⟩
    rwa [← Registry.hasNode_congr (hsame other)]

theorem dropNode_post {id : String} (h : Counting threshold monitor) :
    (dropNode id).Post monitor (fun _ monitor' => Counting threshold monitor')
      (fun _ _ => False) := by
  refine Post.bind (Post.on (Registry.dropNode_post.mono ?_ (fun _ _ hfalse => hfalse)))
  rintro dropped registry ⟨hnone, hothers⟩
  have hnodes : ∀ other, registry.hasNode other = true →
      other ≠ id ∧ monitor.registry.hasNode other = true := by
    intro other hnode
    have hne : other ≠ id := by
      rintro rfl
      exact hnone hnode
    rw [Registry.hasNode_congr (hothers other hne)] at hnode
    exact ⟨hne, hnode⟩
  have hregistry := h.registry fun other hnode => (hnodes other hnode).2
  refine Post.ite (fun _ => Post.bind (Post.modify (Post.pure ⟨h.dead, ?_, ?_⟩)))
    (fun _ => Post.pure hregistry)
  · exact h.justified.cons (by rintro _ ⟨⟩)
  · intro other hnode
    obtain ⟨hne, hold⟩ := hnodes other hnode
    show monitor.missed other ≤ if id = other then 0 else streak other monitor.history
    rw [if_neg hne.symm]
    exact h.counts other hold

theorem step_post {event : Event} (h : Counting threshold monitor)
    (hfresh : AddsFresh monitor event) :
    (step event).Post monitor (fun _ monitor' => Counting threshold monitor')
      (fun _ monitor' => Justified threshold monitor'.history) := by
  cases event with
  | create id start =>
      refine Post.bind (Post.catchException ?_)
      refine (createNode_post h hfresh).mono (fun _ _ hcounting => Post.pure hcounting) ?_
      rintro _ monitor' ⟨hcounting, what, rfl⟩
      exact Post.pure (Post.pure hcounting)
  | drop id =>
      refine Post.bind ((dropNode_post h).mono ?_ (fun _ _ hfalse => hfalse.elim))
      exact fun _ _ hcounting => Post.pure hcounting
  | probe env => exact probeOnce_post h

end Calls

/-! ## Runs -/

/-- Every call of a run, at the state it starts from. -/
def EveryCall (P : Monitor → Event → Prop) : List Event → Monitor → Prop
  | [], _ => True
  | event :: events, monitor =>
      P monitor event ∧
        (step event).Post monitor (fun _ monitor' => EveryCall P events monitor') (fun _ _ => True)

theorem run_justified {threshold : Nat} {monitor : Monitor} {events : List Event}
    (h : Counting threshold monitor) (hfresh : EveryCall AddsFresh events monitor) :
    (run events).Post monitor (fun _ monitor' => Justified threshold monitor'.history)
      (fun _ monitor' => Justified threshold monitor'.history) := by
  induction events generalizing monitor with
  | nil => exact Post.pure h.justified
  | cons event events ih =>
      obtain ⟨hevent, hlater⟩ := hfresh
      refine Post.bind (((step_post h hevent).and hlater).mono ?_ (fun _ _ hdone => hdone.1))
      exact fun _ monitor' hboth => ih hboth.1 hboth.2

theorem counting_new (registry : Registry) (deadThreshold : UInt32) :
    Counting (new registry deadThreshold).deadThreshold (new registry deadThreshold) := by
  refine ⟨rfl, fun reports older hsuffix => ?_, fun id _ => Nat.le_refl 0⟩
  exact absurd (List.suffix_nil.1 hsuffix) (List.cons_ne_nil _ _)

/-- In every run that adds no node under an id with misses, a node is restarted or marked `Down` only
    when the last probes, as many as the threshold says, have all pinged it without success. -/
theorem restarts_justified (registry : Registry) (deadThreshold : UInt32) {events : List Event}
    (hfresh : EveryCall AddsFresh events (new registry deadThreshold)) :
    Justified (new registry deadThreshold).deadThreshold
      ((run events).after (new registry deadThreshold)).history :=
  (run_justified (counting_new registry deadThreshold) hfresh).of_after

theorem everyCall_cons {P : Monitor → Event → Prop} {event : Event} {events : List Event}
    {monitor monitor' : Monitor} (h : P monitor event)
    (hstep : step event monitor = .ok () monitor') (hrest : EveryCall P events monitor') :
    EveryCall P (event :: events) monitor := by
  refine ⟨h, ?_⟩
  rw [Post, hstep]
  exact hrest

/-- No node answers, and none can be started. -/
def silence : ProbeEnv := { ping := fun _ => false, start := fun _ => .notStarted }

theorem restarts_justified_silence :
    Justified 2 ((run [.create "shop.users" .started, .probe silence, .probe silence]).after
      (new (.new false) 2)).history := by
  have hfresh : EveryCall AddsFresh [.create "shop.users" .started, .probe silence, .probe silence]
      (new (.new false) 2) := by
    refine everyCall_cons ?_ rfl (everyCall_cons ?_ rfl (everyCall_cons ?_ rfl trivial))
    · rintro _ _ ⟨⟩ _ _
      rfl
    all_goals
      rintro _ _ ⟨⟩
  exact restarts_justified (.new false) 2 hfresh

/-- A node that is dropped and created again is restarted after the first miss. -/
def dropAndCreate : List Event :=
  [.create "shop.users" .started, .probe silence, .probe silence, .drop "shop.users",
    .create "shop.users" .started, .probe silence]

theorem dropAndCreate_not_justified :
    (new (.new false) 3).deadThreshold = 3 ∧
      ¬ Justified 3 ((run dropAndCreate).after (new (.new false) 3)).history := by
  refine ⟨rfl, fun h => ?_⟩
  have hstreak := h [("shop.users", .restarted), ("shop.users", .down)] _ (List.suffix_refl _)
    "shop.users" .restarted List.mem_cons_self (.inl rfl)
  exact absurd hstreak (by decide)

end Monitor

end QuasarDB.Server

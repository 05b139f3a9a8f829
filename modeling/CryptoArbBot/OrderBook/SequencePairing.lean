import CryptoArbBot.OrderBook.SeqlockReaders

/-!
# Which levels a sequence id comes with

The writers store `last_sequence_id_` before the counter becomes odd, so for one
step a reader may load the new id while the levels are still the old ones and the
counter does not change. For every iteration it is noted whether its load of the
id fell into that gap.
-/

namespace CryptoArbBot
open Seqlock

abbrev SnapshotSystem := System TopOfBook OrderBook SnapshotLocals

def snapshotStep (std : StdSort PriceLevel) (exchange : Exchange) (pair : String) (depth : ℕ) :
    SnapshotSystem → Action BookCall → SnapshotSystem :=
  (Reader.snapshot depth).step std exchange pair

def snapshotStart (depth : ℕ) (b : OrderBook) : SnapshotSystem := (Reader.snapshot depth).start b

/-- The result is made of what the call that left the book `p` installed. -/
structure InstalledBy (depth : ℕ) (p : OrderBook) (l : SnapshotLocals) : Prop where
  sequenceId : l.sequenceId = p.top.lastSequenceId
  localTimestamp : l.localTimestamp = p.top.lastUpdateTime
  bids : l.bids = p.bids.take (min depth 20)
  asks : l.asks = p.asks.take (min depth 20)

/-- A snapshot that returned on an even counter was installed by one call, and none has
copied past the end of a vector. -/
def Paired (depth : ℕ) (s : SnapshotSystem) : Prop :=
  match s.phase with
  | .returned opened l => opened % 2 = 0 → ∃ p ∈ s.history, InstalledBy depth p l
  | .undefined => False
  | .opening _ | .running _ _ | .closing _ _ => True

/-! ### The gap -/

/-- The id is stored and the counter is still even. -/
def IdAhead (s : SnapshotSystem) : Prop :=
  match s.pending with
  | .increment :: _ => s.count % 2 = 0
  | _ => False

instance (s : SnapshotSystem) : Decidable (IdAhead s) :=
  match s with
  | ⟨_, count, _, .increment :: _, _, _⟩ => inferInstanceAs (Decidable (count % 2 = 0))
  | ⟨_, _, _, .store _ :: _, _, _⟩ | ⟨_, _, _, [], _, _⟩ => .isFalse id

/-- How the current iteration loaded the id, its first load. -/
inductive IdLoad where
  | none
  | inGap
  | apart
  deriving DecidableEq

def IdLoad.note (load : IdLoad) (s : SnapshotSystem) (a : Action BookCall) : IdLoad :=
  match a, s.phase with
  | .read, .opening _ => .none
  | .read, .running _ _ =>
    if load = .none then if IdAhead s then .inGap else .apart else load
  | _, _ => load

/-- The iteration that is about to be accepted did not load the id in the gap. -/
def LoadedApart (w : SnapshotSystem × IdLoad) (a : Action BookCall) : Prop :=
  match a, w.1.phase with
  | .read, .closing opened _ => wrap w.1.count = wrap opened → opened % 2 = 0 → w.2 ≠ .inGap
  | _, _ => True

instance (w : SnapshotSystem × IdLoad) (a : Action BookCall) : Decidable (LoadedApart w a) :=
  match a, w with
  | .begin _, _ | .write, _ => .isTrue trivial
  | .read, (⟨_, count, _, _, _, .closing opened _⟩, load) =>
    inferInstanceAs (Decidable (wrap count = wrap opened → opened % 2 = 0 → load ≠ .inGap))
  | .read, (⟨_, _, _, _, _, .opening _⟩, _) | .read, (⟨_, _, _, _, _, .running _ _⟩, _)
  | .read, (⟨_, _, _, _, _, .returned _ _⟩, _) | .read, (⟨_, _, _, _, _, .undefined⟩, _) =>
    .isTrue trivial

/-! ### The writers and the id -/

def KeepsId (stores : List (TopOfBook → TopOfBook)) : Prop :=
  ∀ f ∈ stores, ∀ m, (f m).lastSequenceId = m.lastSequenceId

theorem syncTopLevels_keepsId (bids asks : List PriceLevel) : KeepsId (syncTopLevels bids asks) := by
  intro f hf m
  simp only [syncTopLevels, List.cons_append, List.mem_cons, List.mem_append, List.mem_map] at hf
  rcases hf with rfl | ⟨_, _, rfl⟩ | rfl | ⟨_, _, rfl⟩ <;> rfl

theorem publish_eq (bids asks : List PriceLevel) (sequenceId : UInt64) (now : TimePoint) :
    ∃ rest, KeepsId rest ∧ publish bids asks sequenceId now =
      .store (fun m => { m with lastSequenceId := sequenceId }) :: .increment ::
        (rest.map .store ++ [.increment]) := by
  refine ⟨(fun m => { m with lastUpdateTime := now }) :: syncTopLevels bids asks, ?_, ?_⟩
  · exact List.forall_mem_cons.mpr ⟨fun _ => rfl, syncTopLevels_keepsId bids asks⟩
  · simp [publish]

/-- The id in memory is that of the last completed call. -/
def HeadId (s : SnapshotSystem) : Prop :=
  ∃ p past, s.history = p :: past ∧ s.mem.lastSequenceId = p.top.lastSequenceId

inductive WriterId (s : SnapshotSystem) : Prop
  | quiet (heven : s.count % 2 = 0) (hpending : s.pending = []) (hhead : HeadId s)
  | before (heven : s.count % 2 = 0) (hhead : HeadId s) (rest : List (TopOfBook → TopOfBook))
      (hkeep : KeepsId rest)
      (hpending : s.pending =
        .store (fun m => { m with lastSequenceId := s.owner.top.lastSequenceId }) :: .increment ::
          (rest.map .store ++ [.increment]))
  | ahead (heven : s.count % 2 = 0) (rest : List (TopOfBook → TopOfBook)) (hkeep : KeepsId rest)
      (hpending : s.pending = .increment :: (rest.map .store ++ [.increment]))
      (howner : s.mem.lastSequenceId = s.owner.top.lastSequenceId)
  | during (hodd : s.count % 2 = 1) (rest : List (TopOfBook → TopOfBook)) (hkeep : KeepsId rest)
      (hpending : s.pending = rest.map .store ++ [.increment])
      (howner : s.mem.lastSequenceId = s.owner.top.lastSequenceId)

theorem WriterId.headId {s : SnapshotSystem} (h : WriterId s) (heven : s.count % 2 = 0)
    (hapart : ¬ IdAhead s) : HeadId s := by
  cases h with
  | quiet _ _ hhead => exact hhead
  | before _ hhead _ _ _ => exact hhead
  | ahead heven rest _ hpending _ => simp [IdAhead, hpending, heven] at hapart
  | during hodd _ _ _ _ => omega

theorem writerId_store {s : SnapshotSystem} {f : TopOfBook → TopOfBook}
    {ops : List (WriteOp TopOfBook)} (h : WriterId s) (hp : s.pending = .store f :: ops) :
    WriterId ((WriteOp.store f).exec { s with pending := ops }) := by
  cases h with
  | quiet _ hpending _ => simp [hp] at hpending
  | before heven _ rest hkeep hpending =>
    simp only [hp, List.cons.injEq, WriteOp.store.injEq] at hpending
    obtain ⟨rfl, rfl⟩ := hpending
    exact .ahead heven rest hkeep rfl rfl
  | ahead _ _ _ hpending _ => simp [hp] at hpending
  | during hodd rest hkeep hpending howner =>
    cases rest with
    | nil => simp [hp] at hpending
    | cons g rest =>
      simp only [hp, List.map_cons, List.cons_append, List.cons.injEq,
        WriteOp.store.injEq] at hpending
      obtain ⟨rfl, rfl⟩ := hpending
      obtain ⟨hf, hkeep⟩ := List.forall_mem_cons.mp hkeep
      exact .during hodd rest hkeep rfl ((hf s.mem).trans howner)

theorem writerId_increment {s : SnapshotSystem} {ops : List (WriteOp TopOfBook)} (h : WriterId s)
    (hp : s.pending = .increment :: ops) :
    WriterId (WriteOp.increment.exec { s with pending := ops }) := by
  cases h with
  | quiet _ hpending _ => simp [hp] at hpending
  | before _ _ _ _ hpending => simp [hp] at hpending
  | ahead heven rest hkeep hpending howner =>
    simp only [hp, List.cons.injEq, true_and] at hpending
    exact .during (by simp only [WriteOp.exec]; omega) rest hkeep hpending howner
  | during hodd rest hkeep hpending howner =>
    cases rest with
    | cons g rest => simp [hp] at hpending
    | nil =>
      simp only [hp, List.map_nil, List.nil_append, List.cons.injEq, true_and] at hpending
      have heven : (s.count + 1) % 2 = 0 := by omega
      refine .quiet heven hpending ⟨s.owner, s.history, ?_, howner⟩
      simp only [WriteOp.exec, heven, if_true]

theorem writerId_step (std : StdSort PriceLevel) (exchange : Exchange) (pair : String) (depth : ℕ)
    {s : SnapshotSystem} (a : Action BookCall) (h : WriterId s) :
    WriterId (snapshotStep std exchange pair depth s a) := by
  unfold snapshotStep Reader.step
  cases a with
  | begin call =>
    cases hp : s.pending with
    | cons op rest => simpa only [Seqlock.step, hp] using h
    | nil =>
      simp only [Seqlock.step, hp]
      cases h with
      | before _ _ _ _ hpending => simp [hp] at hpending
      | ahead _ _ _ hpending _ => simp [hp] at hpending
      | during _ rest _ hpending _ => simp [hp] at hpending
      | quiet heven hpending hhead =>
        rcases start_cases std call s.owner with hgive | ⟨bids, asks, sequenceId, now, hinstall⟩
        · exact .quiet heven (by rw [hgive]) hhead
        · obtain ⟨rest, hkeep, hpublish⟩ := publish_eq bids asks sequenceId now
          refine .before heven hhead rest hkeep ?_
          dsimp only
          rw [hinstall, install_lastSequenceId]
          exact hpublish
  | write =>
    cases hp : s.pending with
    | nil => simpa only [Seqlock.step, hp] using h
    | cons op rest =>
      simp only [Seqlock.step, hp]
      cases op with
      | increment => exact writerId_increment h hp
      | store f => exact writerId_store h hp
  | read =>
    cases h with
    | quiet heven hpending hhead => exact .quiet heven hpending hhead
    | before heven hhead rest hkeep hpending => exact .before heven hhead rest hkeep hpending
    | ahead heven rest hkeep hpending howner => exact .ahead heven rest hkeep hpending howner
    | during hodd rest hkeep hpending howner => exact .during hodd rest hkeep hpending howner

/-! ### The reader and the id -/

theorem copyLevels_ends {σ : Type} {Q : σ → Prop} {field : Fin 20 → TopOfBook → PriceLevel}
    {next : List PriceLevel → Body TopOfBook σ} (hnext : ∀ vec, (next vec).Ends Q)
    (is : List (Fin 20)) (vec : List PriceLevel) : (copyLevels field is vec next).Ends Q := by
  induction is generalizing vec with
  | nil => exact hnext vec
  | cons i is ih =>
    intro level
    dsimp only
    split
    · exact ih _
    · trivial

theorem snapshotLoop_first (exchange : Exchange) (pair : String) (d : ℕ) (l : SnapshotLocals) :
    ∃ next, (snapshotLoop exchange pair d).body l = .read (·.lastSequenceId) next ∧
      ∀ sequenceId, (next sequenceId).Ends (·.sequenceId = sequenceId) := by
  refine ⟨_, rfl, ?_⟩
  intro sequenceId localTimestamp nb
  apply copyLevels_ends
  intro bids na
  apply copyLevels_ends
  intro asks
  rfl

/-- While the counter has not moved, an iteration that loaded the id apart from the
gap ends with the id of the last completed call. -/
def IdInv (exchange : Exchange) (pair : String) (depth : ℕ) (load : IdLoad) (s : SnapshotSystem) :
    Prop :=
  match s.phase with
  | .opening _ | .undefined => True
  | .running o rest =>
    (load = .none → ∃ l, rest = (snapshotLoop exchange pair (min depth 20)).body l) ∧
      (load = .apart → s.count = o → ∃ p past, s.history = p :: past ∧
        rest.Ends (·.sequenceId = p.top.lastSequenceId))
  | .closing o l =>
    (load = .none → o % 2 = 1) ∧
      (load = .apart → s.count = o → o % 2 = 0 → ∃ p past, s.history = p :: past ∧
        l.sequenceId = p.top.lastSequenceId)
  | .returned o l => o % 2 = 0 → ∃ p ∈ s.history, InstalledBy depth p l

section Reader
variable {exchange : Exchange} {pair : String} {depth : ℕ} {load : IdLoad} {s : SnapshotSystem}

abbrev SnapshotInv (exchange : Exchange) (pair : String) (depth : ℕ) (s : SnapshotSystem) : Prop :=
  ReaderInv TopOfBook.view OrderBook.view (snapshotLoop exchange pair (min depth 20)) s

theorem installedBy_of_fromView {p : OrderBook} {l : SnapshotLocals}
    (h : FromView TopOfBook.view (snapshotLoop exchange pair (min depth 20)) p.view l)
    (hid : l.sequenceId = p.top.lastSequenceId) : InstalledBy depth p l := by
  obtain ⟨l0, h⟩ := h
  obtain ⟨hbids, hasks, htime⟩ := snapshotLoop_evals (Nat.min_le_right depth 20) h
  refine ⟨hid, htime, hbids.trans ?_, hasks.trans ?_⟩
  · exact List.take_take.trans (by rw [min_eq_left (Nat.min_le_right depth 20)])
  · exact List.take_take.trans (by rw [min_eq_left (Nat.min_le_right depth 20)])

theorem idInv_increment {rest : List (WriteOp TopOfBook)} (hr : SnapshotInv exchange pair depth s)
    (h : IdInv exchange pair depth load s) :
    IdInv exchange pair depth load (WriteOp.increment.exec { s with pending := rest }) := by
  simp only [ReaderInv, IdInv, WriteOp.exec] at hr h ⊢
  cases hphase : s.phase with
  | opening l => trivial
  | undefined => trivial
  | running o body =>
    rw [hphase] at hr h
    exact ⟨h.1, fun _ hco => absurd hr.1 (by omega)⟩
  | closing o l =>
    rw [hphase] at hr h
    exact ⟨h.1, fun _ hco => absurd hr.1 (by omega)⟩
  | returned o l =>
    rw [hphase] at h
    intro heven
    obtain ⟨p, hp, hinstalled⟩ := h heven
    refine ⟨p, ?_, hinstalled⟩
    split
    · exact List.mem_cons_of_mem _ hp
    · exact hp

/-- The first load of an iteration. -/
theorem idInv_firstLoad (hid : WriterId s) {o : ℕ} (heven : o % 2 = 0) (l : SnapshotLocals) :
    IdInv exchange pair depth (if IdAhead s then .inGap else .apart)
      { s with
        phase := (snapshotLoop exchange pair (min depth 20)).advance s.mem s.count
          (.running o ((snapshotLoop exchange pair (min depth 20)).body l)) } := by
  obtain ⟨next, hbody, hends⟩ := snapshotLoop_first exchange pair (min depth 20) l
  rw [hbody]
  simp only [IdInv, Call.advance]
  by_cases hgap : IdAhead s
  · rw [if_pos hgap]
    exact ⟨(fun hload => by cases hload), fun hload => by cases hload⟩
  · rw [if_neg hgap]
    refine ⟨(fun hload => by cases hload), fun _ hco => ?_⟩
    obtain ⟨p, past, hhist, hmem⟩ := hid.headId (hco ▸ heven) hgap
    rw [hmem]
    exact ⟨p, past, hhist, hends _⟩

/-- The second load of the counter, with the first one at `o`. -/
theorem idInv_close (hw : WriterInv TopOfBook.view OrderBook.view s)
    (hr : SnapshotInv exchange pair depth s) (h : IdInv exchange pair depth load s) {o : ℕ}
    {l : SnapshotLocals} (hphase : s.phase = .closing o l) (hwrap : s.count < o + 2 ^ 64)
    (hok : wrap s.count = wrap o → o % 2 = 0 → load ≠ .inGap) :
    IdInv exchange pair depth load
      { s with
        phase := (snapshotLoop exchange pair (min depth 20)).advance s.mem s.count
          (.closing o l) } := by
  simp only [ReaderInv, IdInv, Call.advance] at hr h ⊢
  rw [hphase] at hr h
  by_cases heq : wrap s.count = wrap o
  · rw [if_pos heq]
    intro heven
    have hle : o ≤ s.count := hr.1
    have hco : s.count = o := by
      unfold wrap at heq
      omega
    have happart : load = .apart := by
      cases hload : load with
      | none => exact absurd (h.1 hload) (by omega)
      | inGap => exact absurd hload (hok heq heven)
      | apart => rfl
    obtain ⟨p, past, hhist, hp⟩ := h.2 happart hco heven
    obtain ⟨q, past', hhist', hview⟩ := hw.settled (hco ▸ heven)
    have hqp : q = p := (List.cons.inj (hhist'.symm.trans hhist)).1
    have hfrom := hr.2 heven hco
    rw [hview, hqp] at hfrom
    exact ⟨p, by rw [hhist]; exact List.mem_cons_self .., installedBy_of_fromView hfrom hp⟩
  · rw [if_neg heq]
    trivial

theorem idInv_read (hw : WriterInv TopOfBook.view OrderBook.view s) (hid : WriterId s)
    (hr : SnapshotInv exchange pair depth s) (h : IdInv exchange pair depth load s)
    (hwrap : NoWrap s (.read : Action BookCall)) (hok : LoadedApart (s, load) .read) :
    IdInv exchange pair depth (load.note s .read)
      { s with phase := (snapshotLoop exchange pair (min depth 20)).advance s.mem s.count s.phase } := by
  cases hphase : s.phase with
  | opening l =>
    simp only [IdInv, IdLoad.note, hphase, Call.advance, wrap_parity]
    by_cases hodd : s.count % 2 = 1
    · rw [if_pos hodd]
      exact ⟨fun _ => hodd, fun hload => by cases hload⟩
    · rw [if_neg hodd]
      exact ⟨fun _ => ⟨l, rfl⟩, fun hload => by cases hload⟩
  | running o body =>
    have hrunning := hr
    simp only [ReaderInv, hphase] at hrunning
    simp only [IdInv, hphase] at h
    simp only [IdLoad.note, hphase]
    by_cases hnone : load = .none
    · obtain ⟨l, rfl⟩ := h.1 hnone
      rw [if_pos hnone]
      exact idInv_firstLoad hid hrunning.2.1 l
    · rw [if_neg hnone]
      cases body with
      | done l =>
        refine ⟨fun hload => absurd hload hnone, fun hload hco _ => ?_⟩
        exact h.2 hload hco
      | undefined => trivial
      | read field next =>
        refine ⟨fun hload => absurd hload hnone, fun hload hco => ?_⟩
        obtain ⟨p, past, hhist, hends⟩ := h.2 hload hco
        exact ⟨p, past, hhist, hends _⟩
  | closing o l =>
    simp only [NoWrap, LoadedApart, hphase] at hwrap hok
    simp only [IdLoad.note, hphase]
    exact idInv_close hw hr h hphase hwrap hok
  | returned o l =>
    simp only [IdInv, hphase] at h
    exact h
  | undefined => trivial

theorem idInv_step (std : StdSort PriceLevel) (a : Action BookCall)
    (hw : WriterInv TopOfBook.view OrderBook.view s) (hid : WriterId s)
    (hr : SnapshotInv exchange pair depth s) (h : IdInv exchange pair depth load s)
    (hwrap : NoWrap s a) (hok : LoadedApart (s, load) a) :
    IdInv exchange pair depth (load.note s a) (snapshotStep std exchange pair depth s a) := by
  unfold snapshotStep Reader.step
  cases a with
  | begin call =>
    show IdInv exchange pair depth load _
    cases hp : s.pending with
    | nil => simpa only [Seqlock.step, hp, IdInv] using h
    | cons op rest => simpa only [Seqlock.step, hp] using h
  | write =>
    show IdInv exchange pair depth load _
    cases hp : s.pending with
    | nil => simpa only [Seqlock.step, hp] using h
    | cons op rest =>
      cases op with
      | increment =>
        simp only [Seqlock.step, hp]
        exact idInv_increment hr h
      | store f => simpa only [Seqlock.step, hp, WriteOp.exec, IdInv] using h
  | read => exact idInv_read hw hid hr h hwrap hok

theorem paired_of_idInv (hdefined : s.phase.isUndefined = false) (h : IdInv exchange pair depth load s) :
    Paired depth s := by
  unfold IdInv at h
  unfold Paired
  cases hphase : s.phase with
  | returned o l =>
    rw [hphase] at h
    exact h
  | opening l => trivial
  | running o body => trivial
  | closing o l => trivial
  | undefined =>
    rw [hphase] at hdefined
    cases hdefined

theorem paired_of_not_sound (hdefined : s.phase.isUndefined = false) (h : ¬ Sound s) :
    Paired depth s := by
  unfold Sound at h
  unfold Paired
  cases hphase : s.phase with
  | returned o l =>
    rw [hphase] at h
    exact fun heven => absurd heven h
  | opening l => trivial
  | running o body => trivial
  | closing o l => trivial
  | undefined =>
    rw [hphase] at hdefined
    cases hdefined

end Reader

/-- In every interleaving in which no iteration spans 2^64 increments or copies past the
end of a vector and no accepted iteration loaded the id in the gap, a snapshot that
returns on an even counter holds what one call installed. -/
theorem snapshot_paired (std : StdSort PriceLevel) (exchange : Exchange) (pair : String)
    (now : TimePoint) (depth : ℕ) (sched : List (Action BookCall))
    (hwrap : Runs.Along (snapshotStep std exchange pair depth) NoWrap
      (snapshotStart depth (.new exchange pair now)) sched)
    (hrange : Runs.Along (snapshotStep std exchange pair depth) InRange
      (snapshotStart depth (.new exchange pair now)) sched)
    (hapart : Runs.Along (Runs.watch (snapshotStep std exchange pair depth) IdLoad.note) LoadedApart
      (snapshotStart depth (.new exchange pair now), .none) sched) :
    Runs.Always (snapshotStep std exchange pair depth) (Paired depth)
      (snapshotStart depth (.new exchange pair now)) sched := by
  refine Runs.Always.of_watched IdLoad.note .none ?_
  refine (Runs.always_of_along (I := fun w : SnapshotSystem × IdLoad =>
    w.1.phase.isUndefined = false ∧ WriterInv TopOfBook.view OrderBook.view w.1 ∧ WriterId w.1 ∧
      (Sound w.1 → SnapshotInv exchange pair depth w.1 ∧ IdInv exchange pair depth w.2 w.1))
    ?_ ?_ (((hwrap.and hrange).watched IdLoad.note .none).and hapart)).imp ?_
  · intro w a hI hok
    obtain ⟨hdefined, hw, hid, hreader⟩ := hI
    obtain ⟨⟨hnowrap, hinRange⟩, happart⟩ := hok
    refine ⟨defined_step hinRange hdefined, writerInv_step (disciplined_start std) a hw,
      writerId_step std exchange pair depth a hid, fun hsound => ?_⟩
    obtain ⟨hr, h⟩ := hreader (sound_of_step hsound)
    exact ⟨readerInv_step hw hr hnowrap (clean_of_sound hsound),
      idInv_step std a hw hid hr h hnowrap happart⟩
  · refine ⟨rfl, .quiet rfl ⟨_, [], rfl, rfl⟩ rfl rfl, .quiet rfl rfl ⟨_, [], rfl, rfl⟩, fun _ => ?_⟩
    exact ⟨trivial, trivial⟩
  · intro w hI
    obtain ⟨hdefined, -, -, hreader⟩ := hI
    by_cases hsound : Sound w.1
    · exact paired_of_idInv hdefined (hreader hsound).2
    · exact paired_of_not_sound hdefined hsound

/-- The id is loaded before the writer stores its own, the rest while the id is
ahead. -/
def apartSchedule : List (Action BookCall) :=
  [.read, .read, .begin firstDelta, .write] ++ List.replicate 5 .read

theorem apartSchedule_paired :
    Runs.Always (snapshotStep .mergeSort .okx "BTC-USDT" 5) (Paired 5)
      (snapshotStart 5 emptyBook) apartSchedule := by
  have hapart : Runs.Along
      (Runs.watch (snapshotStep .mergeSort .okx "BTC-USDT" 5) IdLoad.note) LoadedApart
      (snapshotStart 5 emptyBook, .none) apartSchedule := by decide +kernel
  have hrange : Runs.Along (snapshotStep .mergeSort .okx "BTC-USDT" 5) InRange
      (snapshotStart 5 emptyBook) apartSchedule := by decide +kernel
  exact snapshot_paired .mergeSort .okx "BTC-USDT" 0 5 apartSchedule
    (short_noWrap .mergeSort (.snapshot 5) .okx "BTC-USDT" 0 (by decide)) hrange hapart

/-- The whole iteration runs while the id is ahead. -/
def gapSchedule : List (Action BookCall) :=
  [.begin firstDelta, .write] ++ List.replicate 7 .read

theorem gapSchedule_not_paired :
    let s := Runs.run (snapshotStep .mergeSort .okx "BTC-USDT" 5) (snapshotStart 5 emptyBook) gapSchedule
    s.phase.result.map (fun r => (r.1, r.2.sequenceId, r.2.bids)) = some (0, 1, []) ∧
      s.history.map (fun p => p.top.lastSequenceId) = [0] ∧ ¬ Paired 5 s := by
  intro s
  have hresult : s.phase.result.map (fun r => (r.1, r.2.sequenceId, r.2.bids)) =
      some (0, 1, []) := by decide +kernel
  have hhistory : s.history.map (fun p => p.top.lastSequenceId) = [0] := by decide +kernel
  refine ⟨hresult, hhistory, fun hpaired => ?_⟩
  unfold Paired at hpaired
  cases hphase : s.phase with
  | returned opened l =>
    simp only [hphase, Phase.result, Option.map_some, Option.some.injEq, Prod.mk.injEq] at hresult
    obtain ⟨hopened, hid, _⟩ := hresult
    rw [hphase] at hpaired
    obtain ⟨p, hp, hinstalled⟩ := hpaired (by rw [hopened])
    have hzero := List.mem_map_of_mem (f := fun p : OrderBook => p.top.lastSequenceId) hp
    rw [hhistory, List.mem_singleton, ← hinstalled.sequenceId, hid] at hzero
    exact absurd hzero (by decide)
  | opening l => simp [hphase, Phase.result] at hresult
  | running o body => simp [hphase, Phase.result] at hresult
  | closing o l => simp [hphase, Phase.result] at hresult
  | undefined => simp [hphase, Phase.result] at hresult

end CryptoArbBot

import Hashring.CoordinatorInvariant

/-! The stores of a repair: they advance single tasks and admit their copies. -/
namespace Hashring
namespace ClusterState

variable {settings : CoordinatorSettings}

theorem Sound.few_admissions {desired : List ReplicaCopy} {admissions : List ReplicaAdmission}
    (few : desired.length ≤ maxReplicaObligations) (once : (admissions.map (·.copy)).Nodup)
    (placed : ∀ admission ∈ admissions, admission.copy ∈ desired) :
    admissions.length ≤ maxReplicaObligations := by
  have inside : admissions.map (·.copy) ⊆ desired := by
    intro copy member
    obtain ⟨admission, listed, rfl⟩ := List.mem_map.mp member
    exact placed admission listed
  calc admissions.length = (admissions.map (·.copy)).length := (List.length_map _).symm
    _ ≤ desired.length := (List.subperm_of_subset once inside).length_le
    _ ≤ maxReplicaObligations := few

structure CopiesEdit (state : ClusterState) (admissions : List ReplicaAdmission)
    (repairs : List ReplicaRepair) : Prop where
  once : (admissions.map (·.copy)).Nodup
  admitted : ∀ admission ∈ admissions, admission.epoch = state.committed.epoch ∧
    state.processInstances.lookup admission.nodeId = some admission.processInstanceId ∧
    admission.digest.isEmpty = false ∧ admission.copy ∈ state.replicaRepairs.map (·.copy)
  sameTasks : repairs.map (fun repair => (repair.epoch, repair.copy)) =
    state.replicaRepairs.map fun repair => (repair.epoch, repair.copy)
  complete : ∀ repair ∈ repairs, repair.phase = .complete → repair.copy ∈ admissions.map (·.copy)

theorem CopiesEdit.copies {state : ClusterState} {admissions : List ReplicaAdmission}
    {repairs : List ReplicaRepair}
    (edit : CopiesEdit state admissions repairs) :
    repairs.map (·.copy) = state.replicaRepairs.map (·.copy) := by
  simpa [Function.comp_def] using congrArg (List.map Prod.snd) edit.sameTasks

theorem CopiesEdit.repair {state : ClusterState} {admissions : List ReplicaAdmission}
    {repairs : List ReplicaRepair} (edit : CopiesEdit state admissions repairs)
    {repair : ReplicaRepair} (member : repair ∈ repairs) :
    ∃ old ∈ state.replicaRepairs, old.epoch = repair.epoch ∧ old.copy = repair.copy := by
  have listed : (repair.epoch, repair.copy) ∈ state.replicaRepairs.map fun repair =>
      (repair.epoch, repair.copy) := by
    rw [← edit.sameTasks]
    exact List.mem_map_of_mem member
  obtain ⟨old, present, same⟩ := List.mem_map.mp listed
  exact ⟨old, present, (Prod.mk.inj same).1, (Prod.mk.inj same).2⟩

theorem Sound.copies_edit {state : ClusterState} (sound : Sound settings state) :
    CopiesEdit state state.replicaAdmissions state.replicaRepairs := by
  obtain ⟨ranges, derived, copies⟩ := sound.valid.copies
  obtain ⟨others, again, few, settled⟩ := (settled_iff state).mp sound.settled
  obtain rfl := Except.ok.inj (derived.symm.trans again)
  refine ⟨copies.admissionsOnce, fun admission member => ?_, rfl, settled.complete⟩
  have kept := settled.admissions admission member
  simp only [admissionKept, decide_eq_true_eq] at kept
  exact ⟨kept.1, kept.2.1, (copies.admitted admission member).2.2.1, settled.covered _ kept.2.2⟩

theorem CopiesEdit.quiet {state : ClusterState} {admissions : List ReplicaAdmission}
    {repairs : List ReplicaRepair} (edit : CopiesEdit state admissions repairs)
    (sound : Sound settings state) :
    Quiet settings state { state with replicaAdmissions := admissions, replicaRepairs := repairs } := by
  obtain ⟨ranges, derived, copies⟩ := sound.valid.copies
  obtain ⟨others, again, few, settled⟩ := (settled_iff state).mp sound.settled
  obtain rfl := Except.ok.inj (derived.symm.trans again)
  -- Nothing new is placed: every copy is one that the committed ranges ask for.
  have inside : ∀ copy ∈ state.replicaRepairs.map (·.copy), copy ∈ desiredCopies ranges := by
    intro copy member
    obtain ⟨repair, listed, rfl⟩ := List.mem_map.mp member
    exact (copies.repaired repair listed).2.1
  have placed : ∀ admission ∈ admissions, admission.copy ∈ desiredCopies ranges :=
    fun admission member => inside _ (edit.admitted admission member).2.2.2
  have fits : ∀ repair ∈ repairs, repair.epoch = state.committed.epoch ∧
      repair.copy ∈ desiredCopies ranges := by
    intro repair member
    obtain ⟨old, present, epoch, copy⟩ := edit.repair member
    obtain ⟨current, desired, _⟩ := copies.repaired old present
    exact ⟨epoch ▸ current, copy ▸ desired⟩
  refine ⟨⟨sound.epoch, ⟨sound.valid.committed, Sound.few_admissions few edit.once placed, ?_,
    fun change active => (sound.valid.change change active).transfer rfl rfl, sound.valid.instances,
      sound.valid.fenced,
    sound.valid.stops, ranges, derived, ?_⟩, ?_, fun change active =>
      (sound.change change active).transfer rfl⟩,
    .same_change rfl rfl, .same_change rfl rfl (.same rfl)⟩
  · calc repairs.length = (repairs.map (·.copy)).length := (List.length_map _).symm
      _ = (state.replicaRepairs.map (·.copy)).length := by rw [edit.copies]
      _ = state.replicaRepairs.length := List.length_map _
      _ ≤ maxReplicaObligations := sound.valid.repairCount
  · refine ⟨edit.once, fun admission member => ?_, edit.copies ▸ copies.repairsOnce, fun repair member =>
      ⟨(fits repair member).1, (fits repair member).2, edit.complete repair member⟩⟩
    obtain ⟨epoch, registered, digest, _⟩ := edit.admitted admission member
    exact ⟨epoch, (sound.valid.instances _ ((FiniteMap.lookup_some_iff _ _ _).mp registered)).2,
      digest, placed admission member⟩
  · refine (settled_iff _).mpr ⟨ranges, derived, few, fun admission member => ?_,
      fun repair member => ?_, edit.complete, ?_⟩
    · obtain ⟨epoch, registered, _, _⟩ := edit.admitted admission member
      exact decide_eq_true ⟨epoch, registered, placed admission member⟩
    · exact decide_eq_true (fits repair member)
    · intro copy desired
      rw [edit.copies]
      exact settled.covered copy desired

theorem replace_first_tasks {pick : ReplicaRepair → Bool} {change : ReplicaRepair → ReplicaRepair}
    {repairs replaced : List ReplicaRepair} (found : replaceFirst pick change repairs = some replaced)
    (same : ∀ repair, (change repair).epoch = repair.epoch ∧ (change repair).copy = repair.copy) :
    replaced.map (fun repair => (repair.epoch, repair.copy)) = repairs.map fun repair =>
      (repair.epoch, repair.copy) := by
  obtain ⟨before, old, after, -, rfl, rfl⟩ := replace_first_split found
  simp only [List.map_append, List.map_cons, (same old).1, (same old).2]

theorem replace_first_picked {α : Type} {pick : α → Bool} {change : α → α} {entries replaced : List α}
    (found : replaceFirst pick change entries = some replaced) : ∃ old ∈ entries, pick old = true := by
  obtain ⟨before, old, after, picked, rfl, -⟩ := replace_first_split found
  exact ⟨old, by simp, picked⟩

/-- One task moved on within its group. -/
theorem CopiesEdit.replace {state : ClusterState} {admissions : List ReplicaAdmission}
    {repairs replaced : List ReplicaRepair} {pick : ReplicaRepair → Bool}
    {change : ReplicaRepair → ReplicaRepair} (edit : CopiesEdit state admissions repairs)
    (found : replaceFirst pick change repairs = some replaced)
    (same : ∀ repair, (change repair).epoch = repair.epoch ∧ (change repair).copy = repair.copy)
    (complete : ∀ repair ∈ repairs, (change repair).phase = .complete → repair.phase = .complete) :
    CopiesEdit state admissions replaced := by
  refine ⟨edit.once, edit.admitted, (replace_first_tasks found same).trans edit.sameTasks,
    fun repair member done => ?_⟩
  rcases mem_replace_first found member with old | ⟨old, present, _, rfl⟩
  · exact edit.complete repair old done
  · rw [(same old).2]
    exact edit.complete old present (complete old present done)

theorem set_repair_phases_quiet {state next : ClusterState} {tasks : List ReplicaRepair}
    {phase : ReplicaRepairPhase} (sound : Sound settings state)
    (stored : state.setRepairPhases tasks phase = .ok (some next, ()))
    (open_ : phase ≠ .complete) : Quiet settings state next := by
  have each : ∀ (tasks : List ReplicaRepair) {repairs replaced : List ReplicaRepair},
      CopiesEdit state state.replicaAdmissions repairs →
      tasks.foldlM (fun repairs task => replaceFirst task.sameTask
        (fun repair => { repair with phase }) repairs) repairs =
        some replaced →
      CopiesEdit state state.replicaAdmissions replaced := by
    intro tasks
    induction tasks with
    | nil =>
        intro repairs replaced edit found
        exact Option.some.inj found ▸ edit
    | cons task rest ih =>
        intro repairs replaced edit found
        obtain ⟨middle, first, later⟩ := Option.bind_eq_some_iff.mp found
        exact ih (edit.replace first (fun _ => ⟨rfl, rfl⟩) fun _ _ done => absurd done open_) later
  unfold setRepairPhases at stored
  split at stored
  · exact absurd stored (by simp)
  · rename_i replaced found
    obtain rfl := Option.some.inj (Prod.mk.inj (Except.ok.inj stored)).1
    exact (each tasks sound.copies_edit found).quiet sound

theorem record_repair_failure_quiet {state next : ClusterState} {tasks : List ReplicaRepair}
    {error : Status} {now : Nat} (sound : Sound settings state)
    (stored : state.recordRepairFailure tasks error now = .ok (some next, ())) :
    Quiet settings state next := by
  have each : ∀ (tasks : List ReplicaRepair) {repairs : List ReplicaRepair},
      CopiesEdit state state.replicaAdmissions repairs →
      CopiesEdit state state.replicaAdmissions (tasks.foldl (fun repairs task =>
        (replaceFirst (fun repair => task.sameTask repair ∧ repair.phase ≠ .complete)
          (ReplicaRepair.backOff now error) repairs).getD repairs) repairs) := by
    intro tasks
    induction tasks with
    | nil => exact fun edit => edit
    | cons task rest ih =>
        intro repairs edit
        rw [List.foldl_cons]
        apply ih
        cases found : replaceFirst (fun repair => task.sameTask repair ∧ repair.phase ≠ .complete)
            (ReplicaRepair.backOff now error) repairs with
        | none => exact edit
        | some replaced => exact edit.replace found (fun _ => ⟨rfl, rfl⟩) fun _ _ done => done
  unfold recordRepairFailure at stored
  simp only at stored
  split at stored
  · obtain rfl := Option.some.inj (Prod.mk.inj (Except.ok.inj stored)).1
    exact (each tasks sound.copies_edit).quiet sound
  · exact absurd stored (by simp)

theorem select_due_quiet {state next : ClusterState} {now : Nat} {groups : List (List ReplicaRepair)}
    (sound : Sound settings state) (stored : state.selectDueRepairGroups now = .ok (some next, groups)) :
    Quiet settings state next := by
  unfold selectDueRepairGroups at stored
  split at stored
  · exact absurd stored (by simp [pure, Except.pure])
  · obtain ⟨reconciled, same, stored⟩ := bind_ok_iff.mp stored
    obtain rfl := Except.ok.inj (sound.settled.symm.trans (mapped_ok same))
    simp only [pure, Except.pure, Except.ok.injEq, Prod.mk.injEq] at stored
    split at stored
    · obtain rfl := Option.some.inj stored.1
      have edit := sound.copies_edit
      have edited : CopiesEdit state state.replicaAdmissions (state.replicaRepairs.map fun repair =>
          if repair.phase = .complete then repair else { repair with phase := .pending }) := by
        refine ⟨edit.once, edit.admitted, ?_, fun repair member done => ?_⟩
        · rw [List.map_map]
          refine List.map_congr_left fun repair _ => ?_
          simp only [Function.comp_apply]
          split <;> rfl
        · obtain ⟨old, present, rfl⟩ := List.mem_map.mp member
          split at done
          · rename_i complete
            rw [if_pos complete]
            exact edit.complete old present complete
          · exact absurd done (by simp)
      exact edited.quiet sound
    · exact absurd stored.1 (by simp)

structure SeedSound (seed : PreparedReplicaSeed) : Prop where
  epoch : seed.admission.epoch = seed.task.epoch
  copy : seed.admission.copy = seed.task.copy
  digest : seed.admission.digest.isEmpty = false

theorem admit_seed_edit {state next : ClusterState} {seed : PreparedReplicaSeed}
    (sound : Sound settings state) (seeded : SeedSound seed)
    (admitted : state.admitSeed seed = .ok next) :
    ∃ admissions repairs, CopiesEdit state admissions repairs ∧
      next = { state with replicaAdmissions := admissions, replicaRepairs := repairs } := by
  unfold admitSeed at admitted
  split at admitted
  · exact absurd admitted (by simp)
  · rename_i current
    obtain ⟨epoch, registered⟩ := not_or.mp current
    have epoch := not_not.mp epoch
    split at admitted
    · exact absurd admitted (by simp)
    · rename_i repairs found
      have edit := sound.copies_edit
      have node : seed.admission.nodeId = seed.task.nodeId := congrArg ReplicaCopy.nodeId seeded.copy
      refine ⟨_, repairs, ⟨?_, fun admission member => ?_, ?_, fun repair member done => ?_⟩,
        (Except.ok.inj admitted).symm⟩
      · rw [List.map_append]
        refine List.nodup_append.mpr ⟨edit.once.sublist (List.filter_sublist.map _),
          List.nodup_singleton _, ?_⟩
        rintro copy kept other new rfl
        -- The filter took out whatever the new admission could repeat.
        obtain ⟨existing, member, rfl⟩ := List.mem_map.mp kept
        obtain ⟨present, other⟩ := List.mem_filter.mp member
        have same : existing.copy = seed.task.copy := (List.mem_singleton.mp new).trans seeded.copy
        exact absurd ⟨(edit.admitted existing present).1.trans epoch, same⟩ (of_decide_eq_true other)
      · rcases List.mem_append.mp member with old | new
        · exact edit.admitted admission (List.mem_filter.mp old).1
        · obtain rfl := List.mem_singleton.mp new
          obtain ⟨task, present, picked⟩ := replace_first_picked found
          refine ⟨seeded.epoch.trans epoch.symm,
            by rw [node]; exact not_not.mp registered, seeded.digest, ?_⟩
          rw [seeded.copy, ← (of_decide_eq_true picked).2]
          exact List.mem_map_of_mem present
      · exact replace_first_tasks found fun _ => ⟨rfl, rfl⟩
      · -- Admissions are replaced one for one, so no copy loses its own.
        have covered : ∀ copy, copy = seed.task.copy ∨ copy ∈ state.replicaAdmissions.map (·.copy) →
            copy ∈ ((state.replicaAdmissions.filter fun existing =>
              ¬(existing.epoch = seed.task.epoch ∧ existing.copy = seed.task.copy)) ++
                  [seed.admission]).map (·.copy) := by
          intro copy known
          by_cases same : copy = seed.task.copy
          · rw [List.map_append, same, ← seeded.copy]
            exact List.mem_append_right _ List.mem_cons_self
          · obtain ⟨existing, present, rfl⟩ := List.mem_map.mp (known.resolve_left same)
            rw [List.map_append]
            exact List.mem_append_left _ (List.mem_map_of_mem
              (List.mem_filter.mpr ⟨present, decide_eq_true fun other => same other.2⟩))
        rcases mem_replace_first found member with old | ⟨old, present, picked, rfl⟩
        · exact covered _ (.inr (edit.complete repair old done))
        · exact covered _ (.inl (of_decide_eq_true picked).2)

theorem store_repair_admissions_quiet {state next : ClusterState} {seeds : List PreparedReplicaSeed}
    (sound : Sound settings state) (seeded : ∀ seed ∈ seeds, SeedSound seed)
    (stored : state.storeRepairAdmissions seeds = .ok (some next, ())) : Quiet settings state next := by
  unfold storeRepairAdmissions at stored
  obtain ⟨last, folded, stored⟩ := bind_ok_iff.mp stored
  obtain rfl := Option.some.inj (Prod.mk.inj (Except.ok.inj stored)).1
  -- One seed after the other; none touches the topology or the change.
  have each : ∀ (seeds : List PreparedReplicaSeed) {middle last : ClusterState},
      (∀ seed ∈ seeds, SeedSound seed) →
      Sound settings middle → seeds.foldlM admitSeed middle = .ok last →
      Sound settings last ∧ last.committed = middle.committed ∧ last.activeChange = middle.activeChange ∧
        last.processInstances = middle.processInstances := by
    intro seeds
    induction seeds with
    | nil =>
        intro middle last _ sound folded
        obtain rfl := Except.ok.inj folded
        exact ⟨sound, rfl, rfl, rfl⟩
    | cons seed rest ih =>
        intro middle last seeded sound folded
        obtain ⟨after, first, later⟩ := bind_ok_iff.mp folded
        obtain ⟨admissions, repairs, edit, rfl⟩ :=
          admit_seed_edit sound (seeded seed List.mem_cons_self) first
        obtain ⟨lastSound, committed, change, instances⟩ :=
          ih (fun seed member => seeded seed (List.mem_cons_of_mem _ member))
            (edit.quiet sound).sound later
        exact ⟨lastSound, committed, change, instances⟩
  obtain ⟨nextSound, committed, change, instances⟩ := each seeds seeded sound folded
  exact ⟨nextSound, .same_change committed change, .same_change committed change (.same instances)⟩

end ClusterState
end Hashring

import ConfigTables.CommandLine.Delivery
import ConfigTables.Emit.Targets
import ConfigTables.Proofs.Files.Writing
import ConfigTables.Proofs.Result
import Mathlib

/-!
    What a delivery comes to. The files of a target go where its own option says, or else where the
    option for all targets does, or else below the directory for all output (`GoesTo`). Directories
    are found for all manifests before the first file is written, so a target without one leaves all
    files as they are, whatever stands before it. What is said of a delivery depends on its plan: a
    dry run says it and writes nothing, and a run that writes all its files says the same. -/

namespace ConfigTables

theorem Manifest.bytes_eq_sum (m : Manifest) :
    m.bytes = (m.files.map (·.content.utf8ByteSize)).sum := by
  rw [Manifest.bytes, List.sum_eq_foldl, List.foldl_map]

namespace Delivery
variable {ctx : Context} {r : Registry} {out : Option String} {target : Target} {m : Manifest}
  {manifests : List Manifest} {deliveries : List Delivery} {summaries : List TargetSummary}
  {dryRun : Bool} {t t' : FileTree} {e : CommandError}

/-! ### Directories -/

/-- Where the files of a target go: where the option of the target says, or else where the option
for all targets does, or else to a directory of its name below `out`. -/
inductive GoesTo (ctx : Context) (out : Option String) (target : Target) : String → Prop
  | own {directory : String} :
      ctx.options.get? (Options.qualified target.name target.directoryKey) = some directory →
      GoesTo ctx out target directory
  | shared {directory : String} :
      ctx.options.get? (Options.qualified target.name target.directoryKey) = none →
      ctx.options.get? target.directoryKey = some directory → GoesTo ctx out target directory
  | below {root : String} :
      ctx.options.get? (Options.qualified target.name target.directoryKey) = none →
      ctx.options.get? target.directoryKey = none → out = some root →
      GoesTo ctx out target (Path.join root target.name)

/-- A target for which none of the three says where its files go. -/
structure Unplaced (ctx : Context) (out : Option String) (target : Target) : Prop where
  own : ctx.options.get? (Options.qualified target.name target.directoryKey) = none
  shared : ctx.options.get? target.directoryKey = none
  below : out = none

theorem directory?_eq_some_iff {directory : String} :
    directory? ctx out target = some directory ↔ GoesTo ctx out target directory := by
  unfold directory? Options.find?
  constructor
  · intro h
    split at h
    · rename_i howns
      cases h
      exact .own howns
    · rename_i howns
      cases hshared : ctx.options.get? target.directoryKey with
      | some d =>
        rw [hshared] at h
        cases h
        exact .shared howns hshared
      | none =>
        rw [hshared, Option.none_or] at h
        obtain ⟨root, hroot, rfl⟩ := Option.map_eq_some_iff.1 h
        exact .below howns hshared hroot
  · intro h
    cases h with
    | own howns => rw [howns, Option.some_or]
    | shared howns hshared => simp only [howns, hshared, Option.some_or]
    | below howns hshared hout =>
      simp only [howns, hshared, hout, Option.none_or, Option.map_some]

theorem directory?_eq_none_iff : directory? ctx out target = none ↔ Unplaced ctx out target := by
  unfold directory? Options.find?
  rw [Option.or_eq_none_iff, Option.map_eq_none_iff]
  constructor
  · rintro ⟨hoption, hout⟩
    split at hoption
    · cases hoption
    · rename_i howns
      exact ⟨howns, hoption, hout⟩
  · rintro ⟨howns, hshared, hout⟩
    exact ⟨by simp only [howns, hshared], hout⟩

/-! ### Plans -/

/-- A manifest of a registered target for which nothing says where its files go. -/
def Homeless (ctx : Context) (r : Registry) (out : Option String) (m : Manifest) : Prop :=
  ∃ target, r.target m.target = .ok target ∧ Unplaced ctx out target

section Manifests
variable (h : r.target m.target = .ok target)
include h

theorem ofManifest_eq : ofManifest ctx r out m =
    match directory? ctx out target with
    | some directory => .ok ⟨directory, m⟩
    | none => .error (.settings (.noOutputDirectory target.name target.directoryKey)) := by
  rw [ofManifest, h]
  rfl

theorem ofManifest_eq_ok_iff {d : Delivery} :
    ofManifest ctx r out m = .ok d ↔ d.manifest = m ∧ GoesTo ctx out target d.directory := by
  rw [ofManifest_eq h, ← directory?_eq_some_iff]
  obtain ⟨directory, manifest⟩ := d
  cases directory? ctx out target <;> simp [and_comm, eq_comm]

theorem ofManifest_eq_error_iff : ofManifest ctx r out m = .error e ↔ Unplaced ctx out target ∧
    e = .settings (.noOutputDirectory target.name target.directoryKey) := by
  rw [ofManifest_eq h, ← directory?_eq_none_iff]
  cases directory? ctx out target <;> simp [eq_comm]

/-- A manifest has a delivery exactly when its files have somewhere to go. -/
theorem exists_ofManifest_iff : (∃ d, ofManifest ctx r out m = .ok d) ↔ ¬Homeless ctx r out m := by
  constructor
  · rintro ⟨d, hd⟩ ⟨target', htarget, hunplaced⟩
    cases hd.symm.trans ((ofManifest_eq_error_iff htarget).2 ⟨hunplaced, rfl⟩)
  · intro hplaced
    cases hd : ofManifest ctx r out m with
    | ok d => exact ⟨d, rfl⟩
    | error e => exact absurd ⟨target, h, ((ofManifest_eq_error_iff h).1 hd).1⟩ hplaced

end Manifests

/-! ### Deliveries -/

theorem run_deliver_dry (deliveries : List Delivery) (t : FileTree) :
    (deliver true deliveries).run.run t = (.ok (deliveries.map summary), t) := by
  induction deliveries with
  | nil => rfl
  | cons d rest ih => exact run_bind_of_ok ih

/-- A delivery that succeeds goes on with the rest, to the files that there are then. -/
theorem exists_of_deliver_cons {d : Delivery}
    (h : (deliver dryRun (d :: deliveries)).run.run t = (.ok summaries, t')) :
    ∃ others written, (deliver dryRun deliveries).run.run written = (.ok others, t') ∧
      summaries = d.summary :: others := by
  rw [deliver] at h
  split at h
  · obtain ⟨others, left, hothers, h⟩ := exists_of_run_bind h
    cases h
    exact ⟨others, t, hothers, rfl⟩
  · obtain ⟨_, written, _, h⟩ := exists_of_run_bind h
    obtain ⟨others, left, hothers, h⟩ := exists_of_run_bind h
    cases h
    exact ⟨others, written, hothers, rfl⟩

/-- What is said of deliveries is made from them alone, also when their files are written. -/
theorem summaries_of_deliver (h : (deliver dryRun deliveries).run.run t = (.ok summaries, t')) :
    summaries = deliveries.map summary := by
  induction deliveries generalizing t summaries with
  | nil =>
    cases h
    rfl
  | cons d rest ih =>
    obtain ⟨others, written, hothers, rfl⟩ := exists_of_deliver_cons h
    rw [ih hothers, List.map_cons]

theorem run_deliverAll_of_ok (h : plan ctx r out manifests = .ok deliveries) :
    (deliverAll ctx r out dryRun manifests).run.run t = (deliver dryRun deliveries).run.run t := by
  rw [deliverAll, h]
  rfl

theorem run_deliverAll_of_error (h : plan ctx r out manifests = .error e) :
    (deliverAll ctx r out dryRun manifests).run.run t = (.error e, t) := by
  rw [deliverAll, h]
  rfl

/-- What is said of the delivery of a manifest: its target, where its files go, how many they are,
and how many bytes they have. -/
structure Tells (ctx : Context) (r : Registry) (out : Option String) (m : Manifest)
    (s : TargetSummary) : Prop where
  name : s.name = m.target
  directory : ∃ target, r.target m.target = .ok target ∧ GoesTo ctx out target s.directory
  files : s.files = m.files.length
  bytes : s.bytes = (m.files.map (·.content.utf8ByteSize)).sum

theorem tells_of_ofManifest {d : Delivery} (h : ofManifest ctx r out m = .ok d) :
    Tells ctx r out m d.summary := by
  obtain ⟨target, htarget, -⟩ := bind_eq_ok_iff.1 h
  rw [mapError_eq_ok_iff] at htarget
  obtain ⟨rfl, hdirectory⟩ := (ofManifest_eq_ok_iff htarget).1 h
  exact ⟨rfl, ⟨target, htarget, hdirectory⟩, rfl, d.manifest.bytes_eq_sum⟩

/-- Only one thing can be said of the delivery of a manifest. -/
theorem Tells.eq_summary {s : TargetSummary} {directory : String} (hs : Tells ctx r out m s)
    (h : r.target m.target = .ok target) (hdirectory : GoesTo ctx out target directory) :
    s = summary ⟨directory, m⟩ := by
  obtain ⟨name, dir, files, bytes⟩ := s
  obtain ⟨rfl, ⟨target', htarget, hdir⟩, rfl, rfl⟩ := hs
  cases h.symm.trans htarget
  rw [← directory?_eq_some_iff] at hdirectory hdir
  cases hdirectory.symm.trans hdir
  rw [summary, m.bytes_eq_sum]

section Plans
variable (hregistered : ∀ m ∈ manifests, ∃ target, r.target m.target = .ok target)
include hregistered

/-- The plan fails for the first manifest whose files have nowhere to go. -/
theorem exists_first_homeless (h : ∃ m ∈ manifests, Homeless ctx r out m) :
    ∃ before m after target, manifests = before ++ m :: after ∧
      (∀ m' ∈ before, ¬Homeless ctx r out m') ∧ r.target m.target = .ok target ∧
      Unplaced ctx out target ∧
      plan ctx r out manifests =
        .error (.settings (.noOutputDirectory target.name target.directoryKey)) := by
  have hplaced : ∀ m ∈ manifests, (∃ d, ofManifest ctx r out m = .ok d) → ¬Homeless ctx r out m := by
    intro m hm
    obtain ⟨target, htarget⟩ := hregistered m hm
    exact (exists_ofManifest_iff htarget).1
  cases hplan : plan ctx r out manifests with
  | ok deliveries =>
    obtain ⟨m, hm, hhomeless⟩ := h
    obtain ⟨d, -, hd⟩ := exists_of_mapM_eq_ok hplan hm
    exact absurd hhomeless (hplaced m hm ⟨d, hd⟩)
  | error e =>
    obtain ⟨before, m, after, rfl, hbefore, hm⟩ := mapM_eq_error_iff.1 hplan
    obtain ⟨target, htarget⟩ := hregistered m (by simp)
    obtain ⟨hunplaced, rfl⟩ := (ofManifest_eq_error_iff htarget).1 hm
    refine ⟨before, m, after, target, rfl, fun m' hm' => ?_, htarget, hunplaced, rfl⟩
    exact hplaced m' (List.mem_append_left _ hm') (hbefore m' hm')

theorem exists_plan (h : ∀ m ∈ manifests, ¬Homeless ctx r out m) :
    ∃ deliveries, plan ctx r out manifests = .ok deliveries ∧
      List.Forall₂ (Tells ctx r out) manifests (deliveries.map summary) := by
  obtain ⟨deliveries, hplan⟩ := exists_mapM (f := ofManifest ctx r out) fun m hm =>
    (hregistered m hm).elim fun target htarget => (exists_ofManifest_iff htarget).2 (h m hm)
  refine ⟨deliveries, hplan, List.forall₂_map_right_iff.2 ?_⟩
  exact (mapM_eq_ok_iff.1 hplan).imp fun m d => tells_of_ofManifest

end Plans

/-- A delivery looks for all directories first. When the files of some manifest have nowhere to go,
it fails for the first such manifest, and all files are as they were, whatever the other manifests
are. Otherwise a dry run succeeds and leaves all files as they were, and what it says of the
manifests, in their order, every run says that writes them and succeeds. -/
theorem delivery_resolved_first (ctx : Context) (r : Registry) (out : Option String)
    (manifests : List Manifest) (t : FileTree)
    (hregistered : ∀ m ∈ manifests, ∃ target, r.target m.target = .ok target) :
    ((∃ m ∈ manifests, Homeless ctx r out m) → ∃ before m after target,
      manifests = before ++ m :: after ∧ (∀ m' ∈ before, ¬Homeless ctx r out m') ∧
      r.target m.target = .ok target ∧ Unplaced ctx out target ∧
      ∀ dryRun, (deliverAll ctx r out dryRun manifests).run.run t =
        (.error (.settings (.noOutputDirectory target.name target.directoryKey)), t)) ∧
    ((∀ m ∈ manifests, ¬Homeless ctx r out m) → ∃ summaries,
      List.Forall₂ (Tells ctx r out) manifests summaries ∧
      (deliverAll ctx r out true manifests).run.run t = (.ok summaries, t) ∧
      ∀ written before after,
        (deliverAll ctx r out false manifests).run.run before = (.ok written, after) →
        written = summaries) := by
  constructor
  · intro h
    obtain ⟨before, m, after, target, hsplit, hbefore, htarget, hunplaced, hplan⟩ :=
      exists_first_homeless hregistered h
    refine ⟨before, m, after, target, hsplit, hbefore, htarget, hunplaced, fun dryRun => ?_⟩
    exact run_deliverAll_of_error hplan
  · intro h
    obtain ⟨deliveries, hplan, htells⟩ := exists_plan hregistered h
    refine ⟨deliveries.map summary, htells, ?_, fun written before after hrun => ?_⟩
    · rw [run_deliverAll_of_ok hplan]
      exact run_deliver_dry deliveries t
    · rw [run_deliverAll_of_ok hplan] at hrun
      exact summaries_of_deliver hrun

namespace Parcels

/-- A file of data and two files of code. -/
def data : Manifest := ⟨DataTarget.name, [⟨"tables.json", "[]"⟩]⟩

def code : Manifest := ⟨Wrapper.targetName, [⟨"tables.rs", "mod tb_item;"⟩, ⟨"tb_item.rs", ""⟩]⟩

/-- A context with an option that says where data go. -/
def context : Context where
  graph := ⟨[], by decide⟩
  target := ⟨"client", "Tables", "", []⟩
  includedTags := []
  options := .ofList [("json.outputDataDir", "rows")]
  exportTables := []
  closure := .empty
  store := .empty []

theorem target_data : Registry.standard.target data.target = .ok DataTarget.target := rfl

theorem target_code : Registry.standard.target code.target = .ok Wrapper.target := rfl

theorem registered :
    ∀ m ∈ [data, code], ∃ target, Registry.standard.target m.target = .ok target := by
  simpa using ⟨⟨_, target_data⟩, ⟨_, target_code⟩⟩

/-- What is said of both, when there is a directory for all output. -/
def both : List TargetSummary :=
  [⟨"json", "rows", 1, 2⟩, ⟨"rust-json", "gen/rust-json", 2, 12⟩]

theorem eq_both (h : List.Forall₂ (Tells context .standard (some "gen")) [data, code] summaries) :
    summaries = both := by
  obtain ⟨first, rest, hfirst, hrest, rfl⟩ := List.forall₂_cons_left_iff.1 h
  obtain ⟨second, others, hsecond, hothers, rfl⟩ := List.forall₂_cons_left_iff.1 hrest
  obtain rfl := List.forall₂_nil_left_iff.1 hothers
  have hdirectory : Path.join "gen" Wrapper.target.name = "gen/rust-json" := by decide
  rw [hfirst.eq_summary target_data (.own rfl), hsecond.eq_summary target_code (.below rfl rfl rfl),
    hdirectory]
  rfl

/-- Without a directory for all output the code has nowhere to go, and no data are written either;
with one, a dry run says where both go, and so does a run that writes them. -/
theorem code_homeless :
    (∀ dryRun, (deliverAll context .standard none dryRun [data, code]).run.run (.empty []) =
      (.error (.settings (.noOutputDirectory "rust-json" "outputCodeDir")), .empty [])) ∧
    (deliverAll context .standard (some "gen") true [data, code]).run.run (.empty []) =
      (.ok both, .empty []) ∧
    ∃ t, (deliverAll context .standard (some "gen") false [data, code]).run.run (.empty []) =
      (.ok both, t) := by
  have hdata : ∀ out, ¬Homeless context .standard out data := fun out =>
    (exists_ofManifest_iff target_data).1 ⟨_, rfl⟩
  constructor
  · obtain ⟨before, m, after, target, hsplit, -, htarget, hunplaced, hrun⟩ :=
      (delivery_resolved_first context .standard none [data, code] (.empty []) registered).1
        ⟨code, by simp, _, target_code, ⟨rfl, rfl, rfl⟩⟩
    have hm : m ∈ [data, code] := hsplit ▸ by simp
    rcases List.mem_pair.1 hm with rfl | rfl
    · exact absurd ⟨target, htarget, hunplaced⟩ (hdata none)
    · cases target_code.symm.trans htarget
      exact hrun
  · have hcode : ¬Homeless context .standard (some "gen") code :=
      (exists_ofManifest_iff target_code).1 ⟨_, rfl⟩
    obtain ⟨told, htells, hdry, hwet⟩ :=
      (delivery_resolved_first context .standard (some "gen") [data, code] (.empty []) registered).2
        (by simpa using ⟨hdata _, hcode⟩)
    obtain rfl := eq_both htells
    have hwrites : ((deliverAll context .standard (some "gen") false [data, code]).run.run
        (.empty [])).1.isOk = true := by
      decide +kernel
    rcases hrun : (deliverAll context .standard (some "gen") false [data, code]).run.run
      (.empty []) with ⟨result, t⟩
    cases result with
    | error e =>
      rw [hrun] at hwrites
      cases hwrites
    | ok written => exact ⟨hdry, t, by rw [hwet written (.empty []) t hrun]⟩

end Parcels

end Delivery

end ConfigTables

import HealthProbe.Proofs.CommandLine.Agreement
import HealthProbe.Proofs.CommandLine.CheckResults

/-! # Checks that fail

A check turns to the file of its node only after all of its checkers have come to verdicts, and there it
reads before it writes. So whatever makes it fail or crash, other than a failure to write, has left the files
as they were.
-/
namespace HealthProbe

namespace FileStore
variable {dir node : String} {files : FileTree} {e : StoreFailure}

/-- Looking a status up fails as a failure to read. -/
theorem exists_read_of_get (h : get dir node files = .error e) : ∃ reason, e = .read node reason := by
  rw [get] at h
  split at h
  · cases h
    exact ⟨_,rfl⟩
  split at h
  · rename_i text _
    rw [decode] at h
    split at h
    · cases h
    · cases h
      exact ⟨_,rfl⟩
  · cases h
  · cases h
    exact ⟨_,rfl⟩

/-- Keeping a status fails as a failure to write. -/
theorem exists_write_of_update {s : NodeStatus} (h : (update dir s files).1 = .error e) :
    ∃ reason, e = .write s.node reason := by
  rw [update] at h
  split at h
  · cases h
    exact ⟨_,rfl⟩
  split at h
  · cases h
  · cases h
    exact ⟨_,rfl⟩

end FileStore

/-- A pass over files whose status cannot be read leaves them as they are. -/
theorem Pass.perform_of_get_error {p : Pass} {dir : String} {files : FileTree} {e : StoreFailure}
    {start : Nat} {results : Table Verdict} (came : p.results start = .ok results)
    (unread : FileStore.get dir p.node files = .error e) :
    (p.perform (FileStore.store dir) start files).1.outcome = .error (.store e) ∧
      (p.perform (FileStore.store dir) start files).2 = files := by
  have written : writeDown (FileStore.store dir) p.node results (p.moment start) files =
      (.error e,files) := by
    simp only [writeDown, FileStore.store, unread]
  obtain ⟨outcome,left⟩ := p.perform_of_results (FileStore.store dir) came files
  rw [outcome, left, written]
  exact ⟨rfl,rfl⟩

/-! ## Configurations that can be loaded -/

namespace Config

theorem validated_eq_ok {c c' : Config} (h : c.validated = .ok c') : c' = c := by
  rw [validated] at h
  split at h
  · cases h
  · cases h
    rfl

theorem validated_of_ofFile {env : Environment} {substituting : Bool} {files : FileTree} {path : String}
    {c : Config} (h : ofFile env substituting files path = .ok c) : c.validated = .ok c := by
  rw [ofFile] at h
  split at h
  · split at h
    · cases h
    · rename_i text _
      rw [ofText] at h
      cases parsed : parse env substituting text with
      | error e =>
        rw [parsed] at h
        cases h
      | ok c' =>
        rw [parsed] at h
        have valid : c'.validated = .ok c := h
        obtain rfl := validated_eq_ok valid
        exact valid
  · cases h

end Config

namespace Site
variable {site : Site} {a : CommandLine} {node : Option String} {format : Format} {f : Failure}
  {c : Config}

theorem acceptable_of_load (load : site.load a = .ok c) : c.Acceptable :=
  acceptable_of_validated (Config.validated_of_ofFile load)

/-- What keeps a check from getting to the writing of its results: a configuration that cannot be loaded,
a node that has no valid name, an entry of which no checker can be made, a checker that crashes, or, with all
checkers made and tried, a status that cannot be read. -/
inductive Stopped (site : Site) (a : CommandLine) (node : Option String) : Failure → Prop
  | unloaded {e : ConfigFailure} (load : site.load a = .error e) : Stopped site a node (.config e)
  | misnamed {c : Config} {v : Violation} (load : site.load a = .ok c)
      (name : nodeViolation? (node.getD c.general.nodeName) = some v) :
      Stopped site a node (.config (.validation v.message))
  | unmade {c : Config} {e : BuildFailure} (load : site.load a = .ok c)
      (name : nodeViolation? (node.getD c.general.nodeName) = none)
      (first : (site.catalogue c (node.getD c.general.nodeName)).FirstRefused c.checkers e) :
      Stopped site a node (.build e)
  | crashed {c : Config} {words : String} (load : site.load a = .ok c)
      (name : nodeViolation? (node.getD c.general.nodeName) = none)
      (makes : ∀ e ∈ c.checkers, (site.catalogue c (node.getD c.general.nodeName)).Makes e)
      (crash : site.FirstCrash c (node.getD c.general.nodeName) words) :
      Stopped site a node (.crashed 0 words)
  | unread {c : Config} {reason : String} (load : site.load a = .ok c)
      (name : nodeViolation? (node.getD c.general.nodeName) = none)
      (makes : ∀ e ∈ c.checkers, (site.catalogue c (node.getD c.general.nodeName)).Makes e)
      (whole : ∀ words, ¬ site.FirstCrash c (node.getD c.general.nodeName) words)
      (get : FileStore.get c.general.statusDir (node.getD c.general.nodeName) site.files =
        .error (.read (node.getD c.general.nodeName) reason)) :
      Stopped site a node (.store (.read (node.getD c.general.nodeName) reason))

theorem check_of_passOn_error (load : site.load a = .ok c)
    (passed : site.passOn c (node.getD c.general.nodeName) = .error f) :
    (site.check a node format).outcome = .error f ∧ (site.check a node format).files = site.files := by
  simp only [check, withConfig_of_load load, passed]
  exact ⟨rfl,rfl⟩

/-- A check comes to what its pass comes to, and leaves the files that the pass leaves. -/
theorem check_of_passOn {r : Pass.Report × FileTree} (load : site.load a = .ok c)
    (passed : site.passOn c (node.getD c.general.nodeName) = .ok r) :
    (site.check a node format).outcome = r.1.outcome.map (fun _ => ()) ∧
      (site.check a node format).files = r.2 := by
  simp only [check, withConfig_of_load load, passed]
  cases r.1.outcome <;> exact ⟨rfl,rfl⟩

theorem passOn_of_buildAll {node : String} {cs : List Checker} (name : nodeViolation? node = none)
    (all : (site.catalogue c node).buildAll c.checkers = .ok cs) : site.passOn c node =
      .ok ((site.pass c node cs).perform (FileStore.store c.general.statusDir) 0 site.files) := by
  simp only [passOn, name, all]

theorem exists_results {node : String} {cs : List Checker} (accepted : c.Acceptable)
    (made : List.Forall₂ (fun e k => (site.catalogue c node).build e = .ok k) c.checkers cs)
    (whole : ∀ words, ¬ site.FirstCrash c node words) :
    ∃ results, (site.pass c node cs).results 0 = .ok results := by
  cases came : (site.pass c node cs).results 0 with
  | ok results => exact ⟨results,rfl⟩
  | error words =>
    exact absurd ((firstCrash_iff accepted made).mp (Pass.results_eq_error_iff.mp came)) (whole words)

theorem Stopped.check (h : site.Stopped a node f) (format : Format) :
    (site.check a node format).outcome = .error f ∧ (site.check a node format).files = site.files := by
  cases h with
  | unloaded load =>
    rw [Site.check, withConfig, load]
    exact ⟨rfl,rfl⟩
  | misnamed load name =>
    refine check_of_passOn_error load ?_
    rw [passOn, name]
  | unmade load name first =>
    refine check_of_passOn_error load ?_
    simp only [passOn, name, Catalogue.buildAll_eq_error_iff.mpr first]
  | @crashed c words load name makes crash =>
    obtain ⟨cs,all⟩ := Catalogue.buildAll_isOk_iff.mpr makes
    have made := Catalogue.forall₂_of_buildAll all
    have came : (site.pass c (node.getD c.general.nodeName) cs).results 0 = .error words :=
      Pass.results_eq_error_iff.mpr ((firstCrash_iff (acceptable_of_load load) made).mpr crash)
    obtain ⟨failed,left⟩ := Pass.perform_of_crash (FileStore.store c.general.statusDir) came site.files
    obtain ⟨outcome,files⟩ := check_of_passOn load (passOn_of_buildAll name all)
    rw [outcome, failed, files]
    exact ⟨rfl,left⟩
  | @unread c _ load name makes whole get =>
    obtain ⟨cs,all⟩ := Catalogue.buildAll_isOk_iff.mpr makes
    have unread : FileStore.get c.general.statusDir
        (site.pass c (node.getD c.general.nodeName) cs).node site.files = _ := get
    obtain ⟨results,came⟩ := exists_results (acceptable_of_load load) (Catalogue.forall₂_of_buildAll all) whole
    obtain ⟨failed,left⟩ := Pass.perform_of_get_error came unread
    obtain ⟨outcome,files⟩ := check_of_passOn load (passOn_of_buildAll name all)
    rw [outcome, failed, files]
    exact ⟨rfl,left⟩

/-- What stops a check is what it fails with. -/
theorem Stopped.of_failed {f' : Failure} (h : site.Stopped a node f')
    (failed : (site.check a node format).outcome = .error f) : site.Stopped a node f := by
  obtain ⟨outcome,_⟩ := h.check format
  cases failed.symm.trans outcome
  exact h

theorem stopped_or_unwritten (failed : (site.check a node format).outcome = .error f) :
    site.Stopped a node f ∨ ∃ key reason, f = .store (.write key reason) := by
  cases load : site.load a with
  | error e => exact .inl ((Stopped.unloaded load).of_failed failed)
  | ok c =>
  cases name : nodeViolation? (node.getD c.general.nodeName) with
  | some v => exact .inl ((Stopped.misnamed load name).of_failed failed)
  | none =>
  rcases (site.catalogue c (node.getD c.general.nodeName)).buildAll_spec c.checkers with
    ⟨cs,all,made⟩ | ⟨e,_,first⟩
  · obtain ⟨outcome,_⟩ := check_of_passOn load (passOn_of_buildAll name all)
    rw [outcome] at failed
    have makes := Catalogue.makes_of_forall₂ made
    by_cases crashing : ∃ words, site.FirstCrash c (node.getD c.general.nodeName) words
    · obtain ⟨words,crash⟩ := crashing
      have stopped := Stopped.crashed load name makes crash
      rw [← outcome] at failed
      exact .inl (stopped.of_failed failed)
    · have whole := not_exists.mp crashing
      obtain ⟨results,came⟩ := exists_results (acceptable_of_load load) made whole
      rcases outcome_perform came c.general.statusDir site.files with ok | ⟨e,broken,store⟩
      · rw [ok] at failed
        cases failed
      · rw [broken] at failed
        cases failed
        rcases store with get | ⟨s,update⟩
        · obtain ⟨reason,rfl⟩ := FileStore.exists_read_of_get get
          exact .inl (.unread load name makes whole get)
        · obtain ⟨reason,rfl⟩ := FileStore.exists_write_of_update update
          exact .inr ⟨_,reason,rfl⟩
  · exact .inl ((Stopped.unmade load name first).of_failed failed)

/-- A check that fails, but not because the results could not be written, has left all files and folders as
they were, and it has come to its failure in one of five ways. -/
theorem failed_check_changes_nothing (failed : (site.check a node format).outcome = .error f)
    (unwritten : ∀ key reason, f ≠ .store (.write key reason)) :
    site.Stopped a node f ∧ (site.check a node format).files = site.files := by
  rcases stopped_or_unwritten failed with stopped | ⟨key,reason,same⟩
  · exact ⟨stopped,(stopped.check format).2⟩
  · exact absurd same (unwritten key reason)

end Site

def aimless : String :=
  "[[checkers]]\nname=\"a\"\ntype=\"network\"\nnetwork=\x7bprotocol=\"http\"\x7d\n" ++
    "[[checkers]]\nname=\"b\"\ntype=\"network\"\nnetwork=\x7bpeer_selector=\"=\"\x7d\n"

def aimlessConfig : Config :=
  ⟨General.standard "/tmp",
    [⟨"a", "network", 0, 0, some { NetworkSpec.standard with protocol := .http }⟩,
     ⟨"b", "network", 0, 0, some { NetworkSpec.standard with peerSelector := "=" }⟩], ⟨[], []⟩⟩

def aimlessSite : Site :=
  ⟨[], ⟨Table.ofList [("config.toml", .text aimless), ("/tmp", .folder), ("/tmp/cluster-vitals", .folder),
      ("/tmp/cluster-vitals/localhost.json", .text "\x7b\"node_name\"")]⟩,
    fun _ _ _ _ => .probe ⟨0, none⟩, fun _ => .epoch, none, "first"⟩

theorem load_aimlessSite : aimlessSite.load plainLine = .ok aimlessConfig := by decide +kernel

theorem makes_aimlessSite :
    ∀ e ∈ aimlessConfig.checkers, (aimlessSite.catalogue aimlessConfig "localhost").Makes e :=
  List.forall_mem_cons.mpr ⟨⟨_,rfl⟩,List.forall_mem_singleton.mpr ⟨_,rfl⟩⟩

def unreadableStatus : Failure := .store (.read "localhost" FileStore.unreadable)

/-- One checker has come to a verdict, and the other has failed three times, when the file of the node turns
out to be unreadable. -/
theorem failed_check_changes_nothing_aimless :
    ((aimlessSite.passOn aimlessConfig "localhost").toOption.map fun r =>
      r.1.trials.map fun t => (t.verdict.toOption.bind Verdict.code?, t.attempts.length)) =
        some [(some "InsufficientPeers", 1), (some "RunError", 3)] ∧
    (aimlessSite.check plainLine none .text).outcome = .error unreadableStatus ∧
    (∀ key reason, unreadableStatus ≠ .store (.write key reason)) ∧
    aimlessSite.Stopped plainLine none unreadableStatus ∧
    (aimlessSite.check plainLine none .text).files = aimlessSite.files := by
  have valid : nodeViolation? "localhost" = none := by decide +kernel
  have unread : FileStore.get "/tmp/cluster-vitals" "localhost" aimlessSite.files =
      .error (.read "localhost" FileStore.unreadable) := by decide +kernel
  have whole : ∀ words, ¬ aimlessSite.FirstCrash aimlessConfig "localhost" words := by
    rintro words ⟨_,_,_,_,built,⟨_,_,crash⟩,_⟩
    obtain ⟨_,_,_,_,_,asked⟩ := Catalogue.crash_of_fate built crash
    cases asked
  have stopped : aimlessSite.Stopped plainLine none unreadableStatus :=
    .unread load_aimlessSite valid makes_aimlessSite whole unread
  have failed := (stopped.check .text).1
  have unwritten : ∀ key reason, unreadableStatus ≠ .store (.write key reason) := nofun
  refine ⟨?_,failed,unwritten,Site.failed_check_changes_nothing failed unwritten⟩
  decide +kernel

end HealthProbe

import HealthProbe.CommandLine.Site
import HealthProbe.Proofs.Catalogue.Building
import HealthProbe.Proofs.NodeStatus.History

/-! # The commands agree on a configuration

All three commands make the checkers of a configuration before they do anything else, each for a node of
its own. Since no checker hangs on the node, they make all of them, or stop at the same entry with the
same failure, having told the same lines and changed no file.
-/
namespace HealthProbe

structure Schedule.Follows (s : Schedule) (e : CheckerEntry) : Prop where
  name : s.name = e.name
  kind : s.kind = e.kind
  interval : s.interval = 1000 * e.interval.toNat
  limit : s.limit = 1000 * e.timeout.toNat

theorem Agenda.outcome_ne_build {tasks : List Task} {f : BuildFailure} :
    Agenda.outcome tasks ≠ .error (.build f) := by
  rw [Agenda.outcome]
  split
  · rename_i g found
    obtain ⟨⟨i,t⟩,_,failed⟩ := List.exists_of_findSome?_eq_some found
    rintro ⟨⟩
    revert failed
    simp only [Agenda.failure?]
    split
    · exact nofun
    · split <;> exact nofun
    · exact nofun
  · exact nofun

theorem Pass.outcome_ne_build {σ : Type} {store : Store σ} {p : Pass} {start : Nat} {s : σ}
    {f : BuildFailure} : (p.perform store start s).1.outcome ≠ .error (.build f) := by
  cases came : p.results start with
  | error words =>
    rw [(p.perform_of_crash store came s).1]
    exact nofun
  | ok results =>
    rw [(p.perform_of_results store came s).1]
    split <;> exact nofun

namespace Site
variable {site : Site} {a : CommandLine} {c : Config} {node node' : String} {es : List CheckerEntry}
  {e : CheckerEntry} {f : BuildFailure}

/-! ## The same checkers for every node -/

theorem catalogue_eq (site : Site) (c : Config) (node : String) :
    site.catalogue c node = .builtin site.net c.inventory.directory node := rfl

theorem build_error_congr : (site.catalogue c node).build e = .error f ↔
    (site.catalogue c node').build e = .error f := by
  simp only [catalogue_eq, Catalogue.build_builtin_eq_error_iff]

theorem makes_congr : (site.catalogue c node).Makes e ↔ (site.catalogue c node').Makes e := by
  simp only [catalogue_eq, Catalogue.makes_builtin_iff]

theorem firstRefused_congr : (site.catalogue c node).FirstRefused es f ↔
    (site.catalogue c node').FirstRefused es f := by
  have errors (e : CheckerEntry) : (site.catalogue c node).build e = .error f ↔
      (site.catalogue c node').build e = .error f := build_error_congr
  have makes (e : CheckerEntry) : (site.catalogue c node).Makes e ↔ (site.catalogue c node').Makes e :=
    makes_congr
  simp only [Catalogue.FirstRefused, errors, makes]

theorem toOption_build_isSome : ((site.catalogue c node).build e).toOption.isSome = true ↔
    (site.catalogue c node).Makes e := by
  cases built : (site.catalogue c node).build e with
  | error f => exact ⟨fun h => (nomatch h),fun ⟨_,made⟩ => nomatch built.symm.trans made⟩
  | ok k => exact ⟨fun _ => ⟨k,built⟩,fun _ => rfl⟩

theorem catalogueLines_congr (site : Site) (c : Config) (node node' : String) :
    site.catalogueLines c node = site.catalogueLines c node' := by
  have same : (fun e => ((site.catalogue c node).build e).toOption.isSome) =
      fun e => ((site.catalogue c node').build e).toOption.isSome := by
    funext e
    rw [Bool.eq_iff_iff, toOption_build_isSome, toOption_build_isSome]
    exact makes_congr
  rw [catalogueLines, catalogueLines, Catalogue.buildLines, Catalogue.buildLines, same]

/-! ## The three commands -/

/-- What is told while a configuration is loaded and its checkers are made, up to the first that cannot
be. -/
def buildingOutputs (site : Site) (a : CommandLine) (c : Config) : List Output :=
  site.loadedLine a :: site.catalogueLines c c.general.nodeName

/-- Every command ends with a failure to make a checker, and none has done anything else. -/
structure AllRefuse (site : Site) (a : CommandLine) (c : Config) (node : String) (f : BuildFailure) :
    Prop where
  validate : ∀ verbose, site.execute { a with command := .validate verbose } =
    some ⟨.error (.build f), .print ("验证配置文件: " ++ site.configFile a) :: site.buildingOutputs a c,
      site.files⟩
  plan : (site.start { a with command := .run }).plan = .error (.build f)
  run : site.execute { a with command := .run } =
    some ⟨.error (.build f), site.buildingOutputs a c, site.files⟩
  check : ∀ format, site.execute { a with command := .check (some node) format } =
    some ⟨.error (.build f), site.buildingOutputs a c, site.files⟩

/-- Every command goes on with all checkers, and none ends with a failure to make one. -/
structure AllBuild (site : Site) (a : CommandLine) (c : Config) (node : String) : Prop where
  validate : ∀ verbose, ∃ d, site.execute { a with command := .validate verbose } = some d ∧
    d.outcome = .ok ()
  plan : ∃ schedules, (site.start { a with command := .run }).plan = .ok (c, schedules) ∧
    List.Forall₂ (fun e (s : Schedule) => s.Follows e) c.checkers schedules
  run : ∀ d, site.execute { a with command := .run } = some d → ∀ f, d.outcome ≠ .error (.build f)
  pass : ∃ cs, List.Forall₂ (fun e k => (site.catalogue c node).build e = .ok k) c.checkers cs ∧
    site.passOn c node =
      .ok ((site.pass c node cs).perform (FileStore.store c.general.statusDir) 0 site.files)
  check : ∀ format, ∃ d, site.execute { a with command := .check (some node) format } = some d ∧
    ∀ f, d.outcome ≠ .error (.build f)

theorem after_failed (site : Site) (f : Failure) (outputs : List Output) :
    (site.failed f).after outputs = ⟨.error f, outputs, site.files⟩ := by
  rw [Done.after, failed, List.append_nil]

theorem withConfig_of_load (loaded : site.load a = .ok c) (next : Config → Done) :
    site.withConfig a next = (next c).after [site.loadedLine a] := by
  rw [withConfig, loaded]

/-- A check comes to what its pass comes to. -/
theorem outcome_check {report : Pass.Report} {files : FileTree} (loaded : site.load a = .ok c)
    (passed : site.passOn c node = .ok (report, files)) (format : Format) :
    (site.check a (some node) format).outcome = report.outcome.map fun _ => () := by
  simp only [check, withConfig_of_load loaded, Option.getD_some, passed]
  cases report.outcome <;> rfl

theorem allRefuse (loaded : site.load a = .ok c) (valid : nodeViolation? node = none)
    (first : (site.catalogue c node).FirstRefused c.checkers f) : site.AllRefuse a c node f := by
  have refused (n : String) : (site.catalogue c n).buildAll c.checkers = .error f :=
    Catalogue.buildAll_eq_error_iff.mpr (firstRefused_congr.mp first)
  have scheduled : Schedule.ofEntries (site.catalogue c c.general.nodeName) c.checkers = .error f := by
    rw [Schedule.ofEntries, refused]
  have started : site.start { a with command := .run } =
      ⟨site.buildingOutputs a c, .error (.build f)⟩ := by
    have loaded' : site.load { a with command := .run } = .ok c := loaded
    simp only [start, loaded', scheduled]
    rfl
  have passed : site.passOn c node = .error (.build f) := by
    simp only [passOn, valid, refused]
  refine ⟨?_,?_,?_,?_⟩
  · intro verbose
    have loaded' : site.load { a with command := .validate verbose } = .ok c := loaded
    simp only [execute, validate, withConfig_of_load loaded', refused, after_failed]
    rfl
  · rw [started]
  · simp only [execute, run, started, after_failed]
  · intro format
    have loaded' : site.load { a with command := .check (some node) format } = .ok c := loaded
    simp only [execute, check, withConfig_of_load loaded', Option.getD_some, valid, passed, after_failed,
      site.catalogueLines_congr c node c.general.nodeName]
    rfl

theorem follows_ofChecker {k : Checker} (built : (site.catalogue c node).build e = .ok k) :
    (Schedule.ofChecker e k).Follows e :=
  ⟨Catalogue.name_of_build built,rfl,rfl,rfl⟩

theorem forall₂_ofChecker {cs : List Checker}
    (made : List.Forall₂ (fun e k => (site.catalogue c node).build e = .ok k) es cs) :
    List.Forall₂ (fun e (s : Schedule) => s.Follows e) es
      ((es.zip cs).map fun (e, k) => Schedule.ofChecker e k) := by
  induction made with
  | nil => exact .nil
  | cons built _ ih => exact .cons (follows_ofChecker built) ih

theorem allBuild (loaded : site.load a = .ok c) (valid : nodeViolation? node = none)
    (makes : ∀ e ∈ c.checkers, (site.catalogue c node).Makes e) : site.AllBuild a c node := by
  have built (n : String) : ∃ cs, (site.catalogue c n).buildAll c.checkers = .ok cs :=
    Catalogue.buildAll_isOk_iff.mpr fun e he => makes_congr.mp (makes e he)
  obtain ⟨own,all⟩ := built c.general.nodeName
  obtain ⟨cs,others⟩ := built node
  have scheduled : Schedule.ofEntries (site.catalogue c c.general.nodeName) c.checkers =
      .ok ((c.checkers.zip own).map fun (e, k) => Schedule.ofChecker e k) := by
    rw [Schedule.ofEntries, all]
  have passed : site.passOn c node =
      .ok ((site.pass c node cs).perform (FileStore.store c.general.statusDir) 0 site.files) := by
    simp only [passOn, valid, others]
  have planned : (site.start { a with command := .run }).plan =
      .ok (c, (c.checkers.zip own).map fun (e, k) => Schedule.ofChecker e k) := by
    have loaded' : site.load { a with command := .run } = .ok c := loaded
    simp only [start, loaded', scheduled]
  refine ⟨?_,⟨_,planned,forall₂_ofChecker (Catalogue.forall₂_of_buildAll all)⟩,?_,
    ⟨cs,Catalogue.forall₂_of_buildAll others,passed⟩,?_⟩
  · intro verbose
    have loaded' : site.load { a with command := .validate verbose } = .ok c := loaded
    refine ⟨_,rfl,?_⟩
    simp only [validate, withConfig_of_load loaded', all]
    rfl
  · intro d ended f
    simp only [execute, run, planned] at ended
    obtain ⟨r,ran,rfl⟩ := Option.map_eq_some_iff.mp ended
    obtain ⟨g,_,rfl⟩ := Option.map_eq_some_iff.mp ran
    exact Agenda.outcome_ne_build
  · intro format
    have loaded' : site.load { a with command := .check (some node) format } = .ok c := loaded
    refine ⟨_,rfl,?_⟩
    intro f
    have never : ((site.pass c node cs).perform (FileStore.store c.general.statusDir) 0
        site.files).1.outcome ≠ .error (.build f) := Pass.outcome_ne_build
    rcases performed : (site.pass c node cs).perform (FileStore.store c.general.statusDir) 0 site.files
      with ⟨report,files⟩
    rw [performed] at passed never
    rw [outcome_check loaded' passed]
    cases came : report.outcome with
    | error g =>
      rintro ⟨⟩
      exact never came
    | ok results => exact nofun

/-- Of a configuration that can be loaded either every command makes all checkers, or every command fails
with the failure of the first entry of which none can be made, and has done nothing else. This is the same
for every node, and in the first case there is a schedule for each entry. -/
theorem commands_agree_on_building (loaded : site.load a = .ok c) (valid : nodeViolation? node = none) :
    (∀ e f node', (site.catalogue c node).build e = .error f ↔
      (site.catalogue c node').build e = .error f) ∧
    ((∀ e ∈ c.checkers, (site.catalogue c node).Makes e) ∧ site.AllBuild a c node ∨
      ∃ f, (site.catalogue c node).FirstRefused c.checkers f ∧ site.AllRefuse a c node f) := by
  refine ⟨fun _ _ _ => build_error_congr,?_⟩
  rcases (site.catalogue c node).buildAll_spec c.checkers with ⟨_,_,made⟩ | ⟨f,_,first⟩
  · have makes := Catalogue.makes_of_forall₂ made
    exact .inl ⟨makes,allBuild loaded valid makes⟩
  · exact .inr ⟨f,first,allRefuse loaded valid first⟩

end Site

def twoKinds : String :=
  "[[checkers]]\nname=\"web\"\ntype=\"network\"\ninterval_seconds=30\nnetwork=\x7bprotocol=\"http\"\x7d\n" ++
    "[[checkers]]\nname=\"disk\"\ntype=\"disk\"\n"

def twoKindsConfig : Config :=
  ⟨General.standard "/tmp",
    [⟨"web", "network", 30, 0, some { NetworkSpec.standard with protocol := .http }⟩,
     ⟨"disk", "disk", 0, 0, none⟩], ⟨[], []⟩⟩

def twoKindsSite : Site :=
  ⟨[], ⟨Table.empty.insert "config.toml" (.text twoKinds)⟩, fun _ _ _ _ => .probe ⟨0, none⟩, fun _ => .epoch,
    none, "first"⟩

def plainLine : CommandLine := ⟨none, none, none, false, .run⟩

theorem commands_agree_on_building_twoKinds :
    twoKindsSite.load plainLine = .ok twoKindsConfig ∧ nodeViolation? "node-1" = none ∧
    (twoKindsSite.catalogue twoKindsConfig "node-1").FirstRefused twoKindsConfig.checkers
      (.unknownKind "disk") ∧
    twoKindsSite.AllRefuse plainLine twoKindsConfig "node-1" (.unknownKind "disk") := by
  have loaded : twoKindsSite.load plainLine = .ok twoKindsConfig := by decide +kernel
  have valid : nodeViolation? "node-1" = none := by decide +kernel
  have first : (twoKindsSite.catalogue twoKindsConfig "node-1").FirstRefused twoKindsConfig.checkers
      (.unknownKind "disk") := by
    have web : (twoKindsSite.catalogue twoKindsConfig "node-1").Makes
        ⟨"web", "network", 30, 0, some { NetworkSpec.standard with protocol := .http }⟩ :=
      Catalogue.makes_builtin_iff.mpr ⟨_,_,rfl,rfl,rfl⟩
    have disk : (twoKindsSite.catalogue twoKindsConfig "node-1").build ⟨"disk", "disk", 0, 0, none⟩ =
        .error (.unknownKind "disk") := rfl
    exact Catalogue.FirstRefused.cons (Catalogue.firstRefused_cons_of_error disk) web
  obtain ⟨_,⟨makes,_⟩ | ⟨f,refused,all⟩⟩ := Site.commands_agree_on_building loaded valid
  · exact absurd makes first.not_forall
  · cases refused.unique first
    exact ⟨loaded,valid,first,all⟩

end HealthProbe

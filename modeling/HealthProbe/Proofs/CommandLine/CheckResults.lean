import HealthProbe.Proofs.CommandLine.CheckPass
import HealthProbe.Proofs.Network.Crashes
import HealthProbe.Proofs.Verdict.Detail

/-! # The results of a check

A check has one result for each entry of its configuration, under the name of the entry. Limits and results
go by name and not by place, so this rests on the names being distinct, which the check of the
configuration sees to, and on checkers having the names of their entries. It also rests on no checker
crashing, which the check of the configuration does not see to: there is a longest time that a probe can wait,
but no longest time limit.
-/
namespace HealthProbe

namespace Site
variable {site site' : Site} {c c' : Config} {node node' : String} {e : CheckerEntry}
  {ts ts' : List Trial} {results results' : Table Verdict} {cs : List Checker} {k : Checker}

/-- The limit of an entry is under its name, whatever other entries there are. -/
theorem find?_limits {es : List CheckerEntry} (distinct : (es.map CheckerEntry.name).Nodup)
    (he : e ∈ es) : (limits es).find? e.name = some (1000 * e.timeout.toNat) := by
  refine Table.find?_ofList_of_mem ?_ (List.mem_map.mpr ⟨e,he,rfl⟩)
  rwa [List.map_map]

/-- Results that have one for each entry of a configuration, under its name: what the checker of the entry
comes to when it is tried as often as the configuration says, with the pauses that it says, each time under
the limit of the entry. -/
structure Reports (site : Site) (c : Config) (node : String) (ts : List Trial) (results : Table Verdict) :
    Prop where
  names : results.names.Perm (c.checkers.map CheckerEntry.name)
  attempts : (retries c.general).attempts = c.general.retryAttempts.toNat
  pause : (retries c.general).pause = 1000 * c.general.retryDelay.toNat
  tried : ∀ e ∈ c.checkers, ∃ k t began n v, (site.catalogue c node).build e = .ok k ∧ t ∈ ts ∧
    (retries c.general).Takes (1000 * e.timeout.toNat) k began n t ∧ t.verdict = .ok v ∧
    results.find? e.name = some v

/-- The checker of an entry crashes, and those of all entries before it come to outcomes. -/
def FirstCrash (site : Site) (c : Config) (node words : String) : Prop :=
  ∃ (i : Nat) (e : CheckerEntry) (k : Checker), c.checkers[i]? = some e ∧
    (site.catalogue c node).build e = .ok k ∧
    (retries c.general).Crashes (1000 * e.timeout.toNat) k words ∧
    ∀ (j : Nat) (e' : CheckerEntry), j < i → c.checkers[j]? = some e' →
      ∃ k', (site.catalogue c node).build e' = .ok k' ∧
        (retries c.general).Settles (1000 * e'.timeout.toNat) k'

theorem attempts_retries (accepted : c.Acceptable) :
    (retries c.general).attempts = c.general.retryAttempts.toNat := by
  have some : 1 ≤ c.general.retryAttempts.toNat := UInt32.le_iff_toNat_le.mp accepted.attempts
  exact Nat.max_eq_right some

theorem limit_of_build {k : Checker} (accepted : c.Acceptable) (he : e ∈ c.checkers)
    (built : (site.catalogue c node).build e = .ok k) :
    (site.pass c node cs).limit k = 1000 * e.timeout.toNat := by
  have own : (site.pass c node cs).limits.find? e.name = _ := find?_limits accepted.distinct he
  rw [Pass.limit, Catalogue.name_of_build built, own, Option.getD_some]

theorem firstCrash_iff {words : String} (accepted : c.Acceptable)
    (made : List.Forall₂ (fun e k => (site.catalogue c node).build e = .ok k) c.checkers cs) :
    (site.pass c node cs).FirstCrash words ↔ site.FirstCrash c node words := by
  have limit {e : CheckerEntry} {k : Checker} {i : Nat} (he : c.checkers[i]? = some e)
      (built : (site.catalogue c node).build e = .ok k) :
      (site.pass c node cs).limit k = 1000 * e.timeout.toNat :=
    limit_of_build accepted (List.mem_of_getElem? he) built
  constructor
  · rintro ⟨i,k,hk,crash,before⟩
    obtain ⟨e,he,built⟩ := exists_getElem?_of_forall₂ made.flip hk
    rw [limit he built] at crash
    refine ⟨i,e,k,he,built,crash,?_⟩
    intro j e' hj he'
    obtain ⟨k',hk',built'⟩ := exists_getElem?_of_forall₂ made he'
    have settles := before j k' hj hk'
    rw [limit he' built'] at settles
    exact ⟨k',built',settles⟩
  · rintro ⟨i,e,k,he,built,crash,before⟩
    obtain ⟨_,hk,built'⟩ := exists_getElem?_of_forall₂ made he
    cases built.symm.trans built'
    rw [← limit he built] at crash
    refine ⟨i,k,hk,crash,?_⟩
    intro j k' hj hk'
    obtain ⟨e',he',own⟩ := exists_getElem?_of_forall₂ made.flip hk'
    obtain ⟨_,built',settles⟩ := before j e' hj he'
    cases own.symm.trans built'
    rw [limit he' built']
    exact settles

theorem names_results (distinct : (c.checkers.map CheckerEntry.name).Nodup)
    (named : cs.map Checker.name = c.checkers.map CheckerEntry.name)
    (came : (site.pass c node cs).results 0 = .ok results) :
    results.names.Perm (c.checkers.map CheckerEntry.name) := by
  have sums := (site.pass c node cs).sums_results 0
  rw [came] at sums
  rw [List.perm_ext_iff_of_nodup (Table.nodup_names _) distinct]
  intro name
  rw [Table.mem_names_iff, sums.isSome_iff, ← named]
  rfl

/-- The checker at the place of an entry has the limit of the entry, and no checker after it has its
name. -/
theorem exists_checker (accepted : c.Acceptable)
    (made : List.Forall₂ (fun e k => (site.catalogue c node).build e = .ok k) c.checkers cs)
    (he : e ∈ c.checkers) :
    ∃ (j : Nat) (k : Checker), cs[j]? = some k ∧ (site.catalogue c node).build e = .ok k ∧
      (site.pass c node cs).limit k = 1000 * e.timeout.toNat ∧
      ∀ (i : Nat) (k' : Checker), j < i → cs[i]? = some k' → k'.name ≠ k.name := by
  obtain ⟨j,hj⟩ := List.mem_iff_getElem?.mp he
  obtain ⟨k,hk,built⟩ := exists_getElem?_of_forall₂ made hj
  refine ⟨j,k,hk,built,limit_of_build accepted he built,?_⟩
  intro i k' later hk'
  have distinct : (cs.map Checker.name).Nodup :=
    Catalogue.map_name_of_forall₂ made ▸ accepted.distinct
  obtain ⟨hj,rfl⟩ := List.getElem?_eq_some_iff.mp hk
  obtain ⟨hi,rfl⟩ := List.getElem?_eq_some_iff.mp hk'
  exact (List.pairwise_iff_getElem.mp (List.pairwise_map.mp distinct) j i hj hi later).symm

theorem reports_of_results (accepted : c.Acceptable)
    (made : List.Forall₂ (fun e k => (site.catalogue c node).build e = .ok k) c.checkers cs)
    (came : (site.pass c node cs).results 0 = .ok results) :
    site.Reports c node ((site.pass c node cs).trialsFrom 0) results := by
  have named := Catalogue.map_name_of_forall₂ made
  refine ⟨names_results accepted.distinct named came,attempts_retries accepted,rfl,?_⟩
  intro e he
  obtain ⟨j,k,place,built,limit,latest⟩ := exists_checker accepted made he
  obtain ⟨t,ht,began,v,trial,verdict,found⟩ := Pass.exists_trial_of_results came place latest
  obtain ⟨n,takes⟩ := (site.pass c node cs).retries.trial_exact ((site.pass c node cs).limit k) k began
  rw [Catalogue.name_of_build built] at found
  rw [← trial, limit] at takes
  exact ⟨k,t,began,n,v,built,ht,takes,verdict,found⟩

/-- The result of an entry depends on the outcomes of its own checker and on the number of attempts alone. -/
theorem Reports.find?_eq (h : site.Reports c node ts results) (h' : site'.Reports c' node' ts' results')
    (same : c'.general.retryAttempts = c.general.retryAttempts) (he : e ∈ c.checkers)
    (he' : e ∈ c'.checkers)
    (alike : ∀ k k', (site.catalogue c node).build e = .ok k →
      (site'.catalogue c' node').build e = .ok k' →
        ∀ n, k'.fate (1000 * e.timeout.toNat) n = k.fate (1000 * e.timeout.toNat) n) :
    results'.find? e.name = results.find? e.name := by
  obtain ⟨k,t,_,n,v,built,_,takes,verdict,found⟩ := h.tried e he
  obtain ⟨k',t',_,n',v',built',_,takes',verdict',found'⟩ := h'.tried e he'
  have attempts : (retries c'.general).attempts = (retries c.general).attempts := by
    rw [h.attempts, h'.attempts, same]
  have fates : k'.fate (1000 * e.timeout.toNat) = k.fate (1000 * e.timeout.toNat) :=
    funext (alike k k' built built')
  have last := takes.isLast.congr attempts
  rw [← fates] at last
  obtain rfl : n' = n := takes'.isLast.unique last
  rw [takes.verdict_eq, ← fates, ← Retries.judged_congr attempts, ← takes'.verdict_eq, verdict'] at verdict
  rw [found, found', Except.ok.inj verdict]

/-- A pass without a crash comes to its results, unless the status of the node cannot be looked up or cannot
be written. -/
theorem outcome_perform {p : Pass} (came : p.results 0 = .ok results) (dir : String) (files : FileTree) :
    (p.perform (FileStore.store dir) 0 files).1.outcome = .ok results ∨
      ∃ e, (p.perform (FileStore.store dir) 0 files).1.outcome = .error (.store e) ∧
        (FileStore.get dir p.node files = .error e ∨
          ∃ status, (FileStore.update dir status files).1 = .error e) := by
  have asks := Pass.asks_calls (FileStore.store dir) p 0 files
  rw [came] at asks
  generalize p.calls (FileStore.store dir) 0 files = calls at asks
  generalize (p.perform (FileStore.store dir) 0 files).1.outcome = outcome at asks ⊢
  cases asks with
  | unread got => exact .inr ⟨_,rfl,.inl (congrArg Prod.fst got)⟩
  | @unwritten _ _ new _ _ _ got _ _ written =>
    -- Looking a status up in files changes none of them.
    cases congrArg Prod.snd got
    have failed : ((FileStore.store dir).update new files).1 = _ := congrArg Prod.fst written
    exact .inr ⟨_,rfl,.inr ⟨new,failed⟩⟩
  | written => exact .inl rfl

theorem acceptable_of_validated (h : c.validated = .ok c) : c.Acceptable := by
  rw [← Config.violation?_eq_none_iff]
  cases found : c.violation? with
  | none => rfl
  | some v =>
    rw [Config.validated, found] at h
    cases h

/-- A check comes to results that lose no checker, or else its store has failed. In a check with another
configuration, or elsewhere, an entry has the same result as long as its own checker comes to the same in each
attempt. -/
def LosesNone (site : Site) (c : Config) (node : String) (report : Pass.Report) : Prop :=
  ∃ results, (report.outcome = .ok results ∨ ∃ e, report.outcome = .error (.store e) ∧
      (FileStore.get c.general.statusDir node site.files = .error e ∨
        ∃ status, (FileStore.update c.general.statusDir status site.files).1 = .error e)) ∧
    site.Reports c node report.trials results ∧
    ∀ (site' : Site) (c' : Config) (node' : String) (ts' : List Trial) (results' : Table Verdict),
      site'.Reports c' node' ts' results' →
      c'.general.retryAttempts = c.general.retryAttempts → ∀ e ∈ c.checkers, e ∈ c'.checkers →
        (∀ k k', (site.catalogue c node).build e = .ok k → (site'.catalogue c' node').build e = .ok k' →
          ∀ n, k'.fate (1000 * e.timeout.toNat) n = k.fate (1000 * e.timeout.toNat) n) →
        results'.find? e.name = results.find? e.name

theorem losesNone_of_results (accepted : c.Acceptable)
    (made : List.Forall₂ (fun e k => (site.catalogue c node).build e = .ok k) c.checkers cs)
    (came : (site.pass c node cs).results 0 = .ok results) :
    site.LosesNone c node ((site.pass c node cs).perform (FileStore.store c.general.statusDir) 0
      site.files).1 := by
  have reports := reports_of_results accepted made came
  refine ⟨results,outcome_perform came c.general.statusDir site.files,?_,?_⟩
  · rwa [Pass.perform_trials]
  · intro site' c' node' ts' results' reports' same e he he' alike
    exact reports.find?_eq reports' same he he' alike

/-- A check of a valid node, with a configuration that may be used and checkers that can all be made, comes
to one result for each entry, unless a checker crashes; then it crashes with the first of these and has
written nothing. If the clock gets to the deadlines of all queries, none crashes. -/
theorem passOn_loses_no_checker (accepted : c.validated = .ok c) (valid : nodeViolation? node = none)
    (makes : ∀ e ∈ c.checkers, (site.catalogue c node).Makes e) :
    ∃ report files, site.passOn c node = .ok (report, files) ∧
      ((∀ words, ¬ site.FirstCrash c node words) ∧ site.LosesNone c node report ∨
        ∃ words, site.FirstCrash c node words ∧ report.outcome = .error (.crashed 0 words) ∧
          files = site.files) ∧
      ∀ echo, site.net = .ofEchoes echo → c.OnTime echo → site.LosesNone c node report := by
  have acceptable := acceptable_of_validated accepted
  obtain ⟨cs,all⟩ := Catalogue.buildAll_isOk_iff.mpr makes
  have made := Catalogue.forall₂_of_buildAll all
  have passed : site.passOn c node =
      .ok ((site.pass c node cs).perform (FileStore.store c.general.statusDir) 0 site.files) := by
    simp only [passOn, valid, all]
  refine ⟨_,_,passed,?_⟩
  cases came : (site.pass c node cs).results 0 with
  | ok results =>
    have losesNone := losesNone_of_results acceptable made came
    refine ⟨.inl ⟨?_,losesNone⟩,fun _ _ _ => losesNone⟩
    intro words crash
    have crashed : (site.pass c node cs).results 0 = .error words :=
      Pass.results_eq_error_iff.mpr ((firstCrash_iff acceptable made).mpr crash)
    cases came.symm.trans crashed
  | error words =>
    obtain ⟨outcome,left⟩ := Pass.perform_of_crash (FileStore.store c.general.statusDir) came site.files
    have crash := (firstCrash_iff acceptable made).mp (Pass.results_eq_error_iff.mp came)
    refine ⟨.inr ⟨words,crash,outcome,left⟩,?_⟩
    intro echo net onTime
    obtain ⟨i,e,k,he,built,⟨n,_,crashes⟩,_⟩ := crash
    have built' : (Catalogue.builtin (.ofEchoes echo) c.inventory.directory node).build e = .ok k :=
      net ▸ built
    exact absurd crashes (onTime.not_crash (List.mem_of_getElem? he) built')

/-- All that a check comes to are verdicts that can be made, so each has a detail unless it is healthy. -/
theorem made_of_passOn {report : Pass.Report} {files : FileTree} {name : String} {v : Verdict}
    (passed : site.passOn c node = .ok (report, files)) (ok : report.outcome = .ok results)
    (found : results.find? name = some v) : v.Made := by
  obtain ⟨cs,built,performed⟩ := exists_checkers_of_passOn passed
  obtain rfl : _ = report := congrArg Prod.fst performed
  have made : ∀ k ∈ (site.pass c node cs).checkers, k.MakesVerdicts := by
    intro k hk
    obtain ⟨e,own⟩ := Catalogue.exists_entry_of_mem (Catalogue.forall₂_of_buildAll built) hk
    exact Catalogue.makesVerdicts_of_build own
  cases came : (site.pass c node cs).results 0 with
  | error words =>
    obtain ⟨outcome,_⟩ := Pass.perform_of_crash (FileStore.store c.general.statusDir) came site.files
    cases ok.symm.trans outcome
  | ok whole =>
    rcases outcome_perform came c.general.statusDir site.files with same | ⟨e,failed,_⟩
    · cases ok.symm.trans same
      exact Pass.made_of_results made came found
    · cases ok.symm.trans failed

end Site

/-! ## Two checkers with limits of their own -/

def slowEntry : CheckerEntry :=
  ⟨"slow", "network", 30, 2, some { NetworkSpec.standard with protocol := .http, port := 81 }⟩

def patientEntry : CheckerEntry :=
  ⟨"patient", "network", 30, 0, some { NetworkSpec.standard with protocol := .http, port := 80 }⟩

def dnsPods : Inventory :=
  let labels := Table.ofList [("k8s-app", "kube-dns")]
  ⟨[⟨"a", "kube-system", "node-2", .running, true, some (.v4 10 0 0 2), labels⟩,
    ⟨"b", "kube-system", "node-3", .running, true, some (.v4 10 0 0 3), labels⟩],
   [⟨"kube-dns", "kube-system", .v4 10 0 0 9⟩]⟩

def limitedConfig : Config :=
  ⟨⟨"node-1", "info", none, "status", 2, 1, 300⟩, [slowEntry, patientEntry], dnsPods⟩

def lazyEcho : Inquiry → UInt16 → Nat → Address → Echo := fun _ _ _ _ =>
  ⟨0, 0, .ok [], .replied [72, 84, 84, 80, 47, 49, 46, 49, 32, 50, 48, 52, 10, 10], 5000⟩

def lazySite : Site := ⟨[], statusFolder, .ofEchoes lazyEcho, fun _ => .epoch, none, "first"⟩

def patientConfig : Config := { limitedConfig with checkers := [patientEntry] }

theorem not_inquires_dns_patient {s : NetworkSpec} {name : DomainName} {seconds : UInt64} :
    ¬ patientEntry.Inquires s (.dns name seconds) := by
  rintro ⟨_,network,inquiry⟩
  cases network
  cases inquiry

theorem onTime_patientConfig : patientConfig.OnTime lazyEcho :=
  List.forall_mem_singleton.mpr fun _ _ _ inquires => absurd inquires not_inquires_dns_patient

/-- The first checker has two seconds and the second all the time it needs; the second has the same result
without the first. -/
theorem passOn_loses_no_checker_ownLimits :
    limitedConfig.validated = .ok limitedConfig ∧ nodeViolation? "node-1" = none ∧
    ∃ report files results, lazySite.passOn limitedConfig "node-1" = .ok (report, files) ∧
      report.outcome = .ok results ∧ results.names.Perm ["slow", "patient"] ∧
      results.find? "slow" =
        some (.unknown "RunError" "检测在 2 次尝试后仍然失败: 检测超时: 2s") ∧
      results.find? "patient" = some .healthy ∧
      ∃ ts' results', lazySite.Reports patientConfig "node-1" ts' results' ∧
        results'.find? "patient" = some .healthy := by
  have accepted : limitedConfig.validated = .ok limitedConfig := by decide +kernel
  have alone : patientConfig.validated = .ok patientConfig := by decide +kernel
  have valid : nodeViolation? "node-1" = none := by decide +kernel
  have made : (lazySite.catalogue limitedConfig "node-1").Makes patientEntry := ⟨_,rfl⟩
  have makes : ∀ e ∈ limitedConfig.checkers, (lazySite.catalogue limitedConfig "node-1").Makes e :=
    List.forall_mem_cons.mpr ⟨⟨_,rfl⟩,List.forall_mem_singleton.mpr made⟩
  have makes' : ∀ e ∈ patientConfig.checkers, (lazySite.catalogue patientConfig "node-1").Makes e :=
    List.forall_mem_singleton.mpr made
  have came : ((lazySite.passOn limitedConfig "node-1").toOption.bind fun r => r.1.outcome.toOption) =
      some (Table.ofList [("slow", .unknown "RunError" "检测在 2 次尝试后仍然失败: 检测超时: 2s"),
        ("patient", .healthy)]) := by decide +kernel
  obtain ⟨report,files,passed,ok⟩ := Site.exists_of_results came
  obtain ⟨_,_,passed',losesNone,_⟩ := Site.passOn_loses_no_checker accepted valid makes
  obtain ⟨_,_,_,_,onTime⟩ := Site.passOn_loses_no_checker alone valid makes'
  obtain ⟨results',_,reports',_⟩ := onTime lazyEcho rfl onTime_patientConfig
  cases passed.symm.trans passed'
  rcases losesNone with ⟨_,results,outcome,reports,others⟩ | ⟨_,_,crashed,_⟩
  · rw [ok] at outcome
    rcases outcome with same | ⟨e,failed,_⟩
    · cases same
      have patient := others lazySite patientConfig "node-1" _ results' reports' rfl patientEntry
        (List.mem_cons_of_mem _ (List.mem_singleton_self _)) (List.mem_singleton_self _)
        (fun k k' built built' n => by rw [Except.ok.inj (built'.symm.trans built)])
      exact ⟨accepted,valid,report,files,_,passed,ok,reports.names,rfl,rfl,_,results',reports',patient⟩
    · cases failed
  · cases ok.symm.trans crashed

/-! ## A check that crashes -/

def endlessConfig : Config :=
  ⟨⟨"node-1", "info", none, "status", 1, 0, 300⟩,
    [⟨"dns", "network", 0, 0, some (kubernetesSpec 18446744073709551615)⟩], dnsPods⟩

def silentSite : Site :=
  ⟨[], statusFolder, .ofEchoes fun _ _ _ _ => ⟨0, 0, .ok [], .timedOut, 0⟩, fun _ => .epoch, none, "first"⟩

/-- The configuration has been accepted and its checker can be made, but its check has no result for it. -/
theorem endless_limit_crashes_pass :
    endlessConfig.validated = .ok endlessConfig ∧ nodeViolation? "node-1" = none ∧
    (∀ e ∈ endlessConfig.checkers, (silentSite.catalogue endlessConfig "node-1").Makes e) ∧
    ((silentSite.passOn endlessConfig "node-1").toOption.map fun r => r.1.outcome) =
      some (.error (.crashed 0 Dns.noDeadline)) := by
  have inquiry : (kubernetesSpec 18446744073709551615).inquiry =
      .ok (.dns kubernetes 18446744073709551615) := by decide +kernel
  have makes : ∀ e ∈ endlessConfig.checkers, (silentSite.catalogue endlessConfig "node-1").Makes e :=
    List.forall_mem_singleton.mpr (Catalogue.makes_builtin_iff.mpr ⟨_,_,rfl,rfl,inquiry⟩)
  exact ⟨by decide +kernel,by decide +kernel,makes,by decide +kernel⟩

end HealthProbe

import ConfigExpr.Proofs.CommandLine.RepeatableOptions
import ConfigExpr.Proofs.Evaluator.AllowlistHistory

/-!
Which functions may be called. An evaluator keeps to the history of its changes, and the command
line makes its changes in one order whatever the order of its options: what is denied stays denied.
-/
namespace ConfigExpr.CommandLine
open Allowlist

theorem allowed_evaluator (given : Evaluation) (now : Int) :
    (evaluator given now).allowed =
      (Allowlist.standard.after (given.allow.map .allow)).after (given.deny.map .deny) := by
  have asChanges : evaluator given now =
      (given.deny.map Change.deny).foldl Evaluator.change
        ((given.allow.map Change.allow).foldl Evaluator.change
          (.new { Config.standard now with
            maxDepth := given.maxDepth.getD 100, offset := given.timezone.getD 0 }
            Standard.catalogue.hostFunctions)) := by
    rw [List.foldl_map, List.foldl_map]
    rfl
  rw [asChanges, Evaluator.allowed_changes, Evaluator.allowed_changes]
  rfl

theorem mem_allowed_evaluator {args : List String} {given : Evaluation}
    (parsed : parse args = .ok (.evaluate given)) (now : Int) (name : String) :
    name ∈ (evaluator given now).allowed ↔
      (name ∈ Allowlist.standard ∨ name ∈ optionValues .allow args) ∧
        name ∉ optionValues .deny args := by
  have allowed : given.allow = optionValues .allow args := collected_parse .allow rfl parsed
  have denied : given.deny = optionValues .deny args := collected_parse .deny rfl parsed
  rw [allowed_evaluator, mem_after_denied, mem_after_allowed, allowed, denied]

/-- The names that may be called are those whose last change allowed them, or that were listed at
first and never changed. Each is listed once, in the order in which they were let in for the last
time. On the command line a name that is denied anywhere is denied. -/
theorem allowed_functions_follow_history :
    (∀ (config : Config) (functions : HostFunctions) (history : List Change),
      let listed := (history.foldl Evaluator.change (.new config functions)).allowed
      listed.Nodup ∧
      (∀ name, name ∈ listed ↔ lastChange? history name = some (.allow name) ∨
        lastChange? history name = none ∧ name ∈ config.allowed) ∧
      listed.Pairwise (JoinedBefore (config.allowed.map .allow ++ history))) ∧
    (∀ (e : Evaluator) (name : String),
      (name ∈ e.allowed → e.allow name = e) ∧ (name ∉ e.allowed → e.deny name = e) ∧
      ((e.deny name).allow name).allowed = e.allowed.filter (· != name) ++ [name]) ∧
    ∀ (args : List String) (given : Evaluation) (now : Int),
      parse args = .ok (.evaluate given) → ∀ name, name ∈ (evaluator given now).allowed ↔
        (name ∈ Allowlist.standard ∨ name ∈ optionValues .allow args) ∧
          name ∉ optionValues .deny args := by
  refine ⟨fun config functions history => ⟨?_, fun name => ?_, ?_⟩, fun e name => ⟨?_, ?_, ?_⟩,
    fun args given now parsed => mem_allowed_evaluator parsed now⟩
  · rw [Evaluator.allowed_changes_new]
    exact nodup_after _
  · rw [Evaluator.allowed_changes, mem_after]
    refine or_congr_right (and_congr_right fun _ => ?_)
    rw [Evaluator.new, ofList_eq_after, mem_after_allowed]
    exact or_iff_right List.not_mem_nil
  · rw [Evaluator.allowed_changes_new]
    exact pairwise_after _
  · intro listed
    rw [Evaluator.allow, allow_of_mem listed]
  · intro absent
    rw [Evaluator.deny, deny_of_not_mem absent]
  · exact allow_deny e.allowed name

theorem allowed_functions_follow_history_denied_twice :
    let config : Config := { Config.standard 0 with allowed := ["md5", "hash", "md5"] }
    let history : List Change :=
      [.deny "md5", .allow "time", .allow "md5", .deny "date", .allow "time"]
    let e := history.foldl Evaluator.change (.new config Catalogue.empty.hostFunctions)
    let args := ["evaluate", "--deny", "md5", "--allow=intval", "-p", "tree.json", "--allow", "md5"]
    (e.allowed = ["hash", "time", "md5"] ∧ e.allowed.Nodup ∧
      "md5" ∈ e.allowed ∧ lastChange? history "md5" = some (.allow "md5") ∧
      e.allowed.Pairwise (JoinedBefore (config.allowed.map .allow ++ history))) ∧
    (e.allow "time" = e ∧ e.deny "date" = e) ∧
    ∃ given, parse args = .ok (.evaluate given) ∧
      "intval" ∈ (evaluator given 0).allowed ∧ "md5" ∉ (evaluator given 0).allowed := by
  intro config history e args
  obtain ⟨histories, changes, commands⟩ := allowed_functions_follow_history
  obtain ⟨distinct, members, order⟩ := histories config Catalogue.empty.hostFunctions history
  have last : lastChange? history "md5" = some (.allow "md5") := by decide
  have commandMembers := commands args
    ⟨some "tree.json", none, ["intval", "md5"], ["md5"], none, none, none, true⟩ 0 rfl
  refine ⟨⟨by decide, distinct, (members "md5").mpr (.inl last), last, order⟩,
    ⟨(changes e "time").1 (by decide), (changes e "date").2.1 (by decide)⟩, _, rfl, ?_, ?_⟩
  · exact (commandMembers "intval").mpr (by decide)
  · exact fun listed => absurd ((commandMembers "md5").mp listed) (by decide)

end ConfigExpr.CommandLine

import ConfigExpr.Proofs.Standard.Extraction
import ConfigExpr.Proofs.Template.Grammar
import ConfigExpr.Standard.Functions

/-!
What the functions of the standard catalogue do with arguments that passed the check. Every body but
that of `implode` follows a plan made for the signature of its function, so that behind the check no
type is found wrong and nothing is read beyond the arguments: all that is told of types and counts
is told by the check.
-/
namespace ConfigExpr.Standard
open Digest Calendar Outcome

/-- The body of a function does nothing with its arguments but what a plan says. -/
def Follows (f : HostFunction) (plan : Context → Extraction f.signature) : Prop :=
  ∀ args context, f.body args context = (plan context).run args

section Digests
variable (algorithm : Algorithm) (documentation : String)

def digestPlan : Extraction (plainDigest algorithm documentation).signature :=
  .bytes 0 "string" Nat.zero_lt_one rfl fun data =>
    .flag 1 "binary" rfl fun binary => .result (digestValue (algorithm.digest data) binary)

theorem plainDigest_follows :
    Follows (plainDigest algorithm documentation) fun _ => digestPlan algorithm documentation :=
  fun _ _ => rfl

end Digests

def algorithmPlan {s : Signature} (algorithm : String) (next : Algorithm → Extraction s) :
    Extraction s :=
  match Algorithm.ofName? algorithm with
  | some algorithm => next algorithm
  | none => .failure "Argument #1 ($algo) must be a valid hashing algorithm"

theorem run_algorithmPlan {s : Signature} (args : List Value) (algorithm : String)
    (next : Algorithm → Extraction s) :
    (algorithmPlan algorithm next).run args =
      namedAlgorithm s.name algorithm >>= fun algorithm => (next algorithm).run args := by
  rw [algorithmPlan, namedAlgorithm]
  cases Algorithm.ofName? algorithm with
  | none | some algorithm => rfl

def hashPlan : Extraction hash.signature :=
  .text 0 "algo" (by decide) (by decide) fun algorithm =>
    algorithmPlan algorithm fun algorithm =>
      .bytes 1 "data" (by decide) (by decide) fun data =>
        .flag 2 "binary" (by decide) fun binary => .result (digestValue (algorithm.digest data) binary)

theorem hash_follows : Follows hash fun _ => hashPlan := by
  intro args context
  simp only [hashPlan, Extraction.run, run_algorithmPlan]
  rfl

def hashHmacPlan : Extraction hashHmac.signature :=
  .text 0 "algo" (by decide) (by decide) fun algorithm =>
    algorithmPlan algorithm fun algorithm =>
      .bytes 1 "data" (by decide) (by decide) fun data =>
        .bytes 2 "key" (by decide) (by decide) fun key =>
          .flag 3 "binary" (by decide) fun binary =>
            .result (digestValue (algorithm.keyed key data) binary)

theorem hashHmac_follows : Follows hashHmac fun _ => hashHmacPlan := by
  intro args context
  simp only [hashHmacPlan, Extraction.run, run_algorithmPlan]
  rfl

theorem currentTime_follows :
    Follows currentTime fun context => .result (.integer (Int64.ofInt context.now)) :=
  fun _ _ => rfl

/-- The instant of an optional argument, or the current time, by which to go on. -/
def instantPlan {s : Signature} (index : Nat) (param : String)
    (described : s.parameter? index = some (.allowed param .integer)) (context : Context)
    (next : Int → Extraction s) : Extraction s :=
  .integer index param described fun n => next (n.elim context.now Int64.toInt)

theorem run_instantPlan {s : Signature} {index : Nat} {param : String}
    (described : s.parameter? index = some (.allowed param .integer)) (context : Context)
    (next : Int → Extraction s) (args : List Value) :
    (instantPlan index param described context next).run args =
      instantArgument s.name args index param context >>= fun instant =>
        (next instant).run args := by
  rw [instantPlan, Extraction.run, instantArgument]
  cases integerArgument? s.name args index param with
  | error failure => rfl
  | ok n =>
    cases n with
    | none | some n => rfl

def datePlan (context : Context) : Extraction date.signature :=
  .text 0 "format" (by decide) (by decide) fun pattern =>
    instantPlan 1 "timestamp" (by decide) context fun instant =>
      if isSupportedInstant instant then
        .result (.string (DateFormat.format pattern ⟨instant, context.offset⟩))
      else .failure (outOfRange instant)

theorem date_follows : Follows date datePlan := by
  intro args context
  simp only [datePlan, Extraction.run, run_instantPlan, apply_ite (Extraction.run args)]
  rfl

def instantOfPhrasePlan (context : Context) : Extraction instantOfPhrase.signature :=
  .text 0 "datetime" (by decide) (by decide) fun text =>
    instantPlan 1 "baseTimestamp" (by decide) context fun base =>
      match DatePhrase.parse text base context.offset with
      | .ok instant => .result (.integer (Int64.ofInt instant))
      | .error .notUnderstood => .result (.bool false)
      | .error .noLocalTime => .crash localTimeOutOfRange

theorem instantOfPhrase_follows : Follows instantOfPhrase instantOfPhrasePlan := by
  intro args context
  simp only [instantOfPhrasePlan, Extraction.run, run_instantPlan]
  refine bind_congr fun text => bind_congr fun base => ?_
  cases DatePhrase.parse text base context.offset with
  | ok instant => rfl
  | error reason => cases reason <;> rfl

theorem base64Encode_follows : Follows base64Encode fun _ =>
    .bytes 0 "string" (by decide) (by decide) fun data => .result (.string (Base64.encode data)) :=
  fun _ _ => rfl

theorem urlEncode_follows : Follows urlEncode fun _ =>
    .bytes 0 "string" (by decide) (by decide) fun data => .result (.string (Form.encode data)) :=
  fun _ _ => rfl

theorem lowerCase_follows : Follows lowerCase fun _ =>
    .text 0 "string" (by decide) (by decide) fun text => .result (.string (mapText Char.toLower text)) :=
  fun _ _ => rfl

theorem upperCase_follows : Follows upperCase fun _ =>
    .text 0 "string" (by decide) (by decide) fun text => .result (.string (mapText Char.toUpper text)) :=
  fun _ _ => rfl

def trimPlan : Extraction trim.signature :=
  .text 0 "string" (by decide) (by decide) fun text =>
    .textIfGiven 1 "characters" (by decide) fun list =>
      .result (.string (stripListed text (list.getD defaultStripped)))

theorem trim_follows : Follows trim fun _ => trimPlan := by
  intro args context
  simp only [trimPlan, Extraction.run]
  refine bind_congr fun text => ?_
  by_cases missing : args.length ≤ 1
  · rw [if_pos missing, if_pos missing]
    rfl
  · rw [if_neg missing, if_neg missing]
    rfl

def formattedPlan : Extraction formatted.signature :=
  .text 0 "format" (by decide) (by decide) fun template =>
    .values 1 "values" (by decide) (fun further => by cases further <;> rfl) fun values =>
      match Template.renderBytes template values with
      | .ok bytes => .result (Template.ofBytes bytes)
      | .error reason => .failure reason

theorem formatted_follows : Follows formatted fun _ => formattedPlan := by
  intro args context
  simp only [formattedPlan, Extraction.run]
  refine bind_congr fun template => ?_
  rw [Template.format, ← List.drop_one]
  cases Template.renderBytes template (args.drop 1) with
  | error reason | ok bytes => rfl

def integerValuePlan : Extraction integerValue.signature :=
  .integer 1 "base" (by decide) fun n =>
    let base := (n.getD 10).toInt
    if base ≠ 0 ∧ (base < 2 ∨ 36 < base) then
      .failure "Argument #2 ($base) must be between 2 and 36 (inclusive), or 0"
    else .value 0 "value" (by decide) (by decide) fun v => .result (.integer (integerIn base.toNat v))

theorem integerValue_follows : Follows integerValue fun _ => integerValuePlan := by
  intro args context
  simp only [integerValuePlan, Extraction.run]
  refine bind_congr fun n => ?_
  by_cases unknown : (n.getD 10).toInt ≠ 0 ∧ ((n.getD 10).toInt < 2 ∨ 36 < (n.getD 10).toInt)
  · rw [if_pos unknown, if_pos unknown]
    rfl
  · rw [if_neg unknown, if_neg unknown]
    rfl

def stringValuePlan : Extraction stringValue.signature :=
  .value 0 "value" (by decide) (by decide) fun
    | .bytes b => .result (.bytes b)
    | v =>
      match v.text? with
      | some text => .result (.string text)
      | none => .failure "Array to string conversion"

theorem stringValue_follows : Follows stringValue fun _ => stringValuePlan := by
  intro args context
  simp only [stringValuePlan, Extraction.run, stringValue]
  cases argument args 0 with
  | null | bool b | integer n | float x | string s | bytes b | array items | object fields => rfl

theorem typeName_follows : Follows typeName fun _ =>
    .value 0 "value" (by decide) (by decide) fun v => .result (.string v.typeName) :=
  fun _ _ => rfl

theorem exists_follows {f : HostFunction} (listed : f ∈ functions) (other : f.name ≠ "implode") :
    ∃ plan, Follows f plan := by
  simp only [functions, List.mem_cons, List.not_mem_nil, or_false] at listed
  rcases listed with rfl | rfl | rfl | rfl | rfl | rfl | rfl | rfl | rfl | rfl | rfl | rfl | rfl |
    rfl | rfl | rfl | rfl
  · exact ⟨_, plainDigest_follows .md5 _⟩
  · exact ⟨_, plainDigest_follows .sha1 _⟩
  · exact ⟨_, hash_follows⟩
  · exact ⟨_, hashHmac_follows⟩
  · exact ⟨_, currentTime_follows⟩
  · exact ⟨_, date_follows⟩
  · exact ⟨_, instantOfPhrase_follows⟩
  · exact ⟨_, base64Encode_follows⟩
  · exact ⟨_, formatted_follows⟩
  · exact absurd rfl other
  · exact ⟨_, urlEncode_follows⟩
  · exact ⟨_, lowerCase_follows⟩
  · exact ⟨_, upperCase_follows⟩
  · exact ⟨_, trim_follows⟩
  · exact ⟨_, integerValue_follows⟩
  · exact ⟨_, stringValue_follows⟩
  · exact ⟨_, typeName_follows⟩

/-- A call tells of a wrong count or a wrong kind exactly if the check does. Behind the check the body
takes its arguments by a plan that is fixed before they are, and each of them is there and of the
type that is needed. The values behind a template may be taken by numbers; these count from one, so
each stands for a place. -/
theorem arguments_are_validated_first {f : HostFunction} (listed : f ∈ functions)
    (other : f.name ≠ "implode") :
    (∃ plan : Context → Extraction f.signature, Follows f plan ∧ ∀ args context,
      (∀ name least most actual,
        f.call args context = .error (.arity name least most actual) ↔
          f.signature.Miscounts args.length ∧ name = f.name ∧ least = f.signature.least ∧
            most = f.signature.most ∧ actual = args.length) ∧
      (∀ name index param expected actual,
        f.call args context = .error (.argumentType name index param expected actual) ↔
          ¬ f.signature.Miscounts args.length ∧
            ∃ p v, f.signature.RefusesFirst args index p v ∧ name = f.name ∧ param = p.name ∧
              expected = p.kind.name ∧ actual = v.kind.name) ∧
      (HostFunction.validate f.signature args = .ok () →
        f.call args context = (plan context).run args ∧ (plan context).Succeeds args)) ∧
    ∀ template d, .directive d ∈ Template.parse template → d.argument ≠ some 0 := by
  obtain ⟨plan, follows⟩ := exists_follows listed other
  refine ⟨⟨plan, follows, fun args context => ?_⟩,
    fun template d => Template.number_ne_zero_of_mem_pieces⟩
  have ofCheck {failure : CallFailure}
      (notOwn : ∀ reason, ¬ (failure = .failed f.name reason ∨ failure = .crash f.name reason)) :
      f.call args context = .error failure ↔ f.signature.Rejects args failure := by
    rw [HostFunction.call_eq_error_iff]
    refine or_iff_left fun ⟨passed, failed⟩ => ?_
    rw [follows] at failed
    have succeeds := Extraction.succeeds_of_validate passed (plan context)
    obtain ⟨reason, own⟩ := Extraction.own_of_succeeds succeeds failed
    exact notOwn reason own
  refine ⟨fun name least most actual => ?_, fun name index param expected actual => ?_,
    fun passed => ⟨?_, Extraction.succeeds_of_validate passed (plan context)⟩⟩
  · refine (ofCheck fun reason own => ?_).trans Signature.rejects_arity_iff
    rcases own with own | own <;> cases own
  · refine (ofCheck fun reason own => ?_).trans Signature.rejects_argumentType_iff
    rcases own with own | own <;> cases own
  · rw [HostFunction.call, passed, ← follows]

theorem arguments_are_validated_first_date :
    date ∈ functions ∧ date.name ≠ "implode" ∧
      date.call [] ⟨0, 0⟩ = .error (.arity "date" 1 (some 2) 0) ∧
      date.call [.null, .array []] ⟨0, 0⟩ =
        .error (.argumentType "date" 1 "timestamp" "int" "array") := by
  have listed : date ∈ functions := by simp [functions]
  have other : date.name ≠ "implode" := by decide
  obtain ⟨⟨plan, -, told⟩, -⟩ := arguments_are_validated_first listed other
  obtain ⟨count, -, -⟩ := told [] ⟨0, 0⟩
  obtain ⟨-, kind, -⟩ := told [.null, .array []] ⟨0, 0⟩
  have first : date.signature.RefusesFirst [.null, .array []] 1 (.allowed "timestamp" .integer)
      (.array []) := by
    refine ⟨⟨rfl, .own rfl, rfl⟩, fun earlier p v refuses => Nat.pos_of_ne_zero ?_⟩
    rintro rfl
    obtain ⟨held, described, refused⟩ := refuses
    cases held
    cases described with
    | own placed => cases placed; cases refused
    | trailing variadic _ _ => cases variadic
  refine ⟨listed, other, (count _ _ _ _).mpr ⟨.inl (by decide), rfl, rfl, rfl, rfl⟩,
    (kind _ _ _ _ _).mpr ⟨?_, _, _, first, rfl, rfl, rfl, rfl⟩⟩
  rw [← Signature.acceptsCount_iff]
  rfl

end ConfigExpr.Standard

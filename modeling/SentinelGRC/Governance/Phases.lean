import SentinelGRC.Governance.Core

/-!
The phases of an operation. Each operation that passes its checks begins with one phase,
and two phases are followed by another one; every other phase ends its operation.
-/

namespace SentinelGRC.Governance

open Python Json Store Transition

variable {F S : Type}

/-- What an operation found that begins with a phase. -/
inductive Begun (H : Digest) (db : Db F) (actor : ActorContext) : Operation → Phase F → Prop
  | create {findingId controlId assetId title riskOwner severity : Text} {args : FindingArgs}
      (checked : checkFinding actor findingId controlId assetId title riskOwner severity = .ok args) :
      Begun H db actor (.createFinding findingId controlId assetId title riskOwner severity)
        (.create args none)
  | upsert {findingId controlId assetId title riskOwner severity : Text} {args again : FindingArgs}
      (checked : checkFinding actor findingId controlId assetId title riskOwner severity = .ok args)
      (rechecked : checkFinding actor args.findingId.text args.controlId.text args.assetId.text
        args.title.text args.riskOwner.text args.severity.text = .ok again) :
      Begun H db actor (.upsertFinding findingId controlId assetId title riskOwner severity)
        (.create again (some args))
  | assess {findingId likelihoodText impactText : Text} {likelihood impact : Severity}
      {finding : Finding F} (found : getFinding db findingId = .ok finding) :
      Begun H db actor (.assessRisk findingId likelihoodText impactText)
        (.mutate (.assess likelihood impact finding))
  | propose {findingId treatmentText reasonText ownerText : Text} {dueText dueDate : Option Text}
      {treatment : Treatment} {reason : RequiredText} {actionOwner : Identifier} :
      Begun H db actor (.proposeTreatment findingId treatmentText reasonText ownerText dueText)
        (.mutate (.propose findingId treatment reason actionOwner dueDate))
  | approve {findingId decisionText reason : Text} {decision : Decision} {finding : Finding F}
      (found : getFinding db findingId = .ok finding) (independent : actor.actorId ≠ finding.riskOwner) :
      Begun H db actor (.approveTreatment findingId decisionText reason)
        (.mutate (.approve decision reason finding))
  | start {findingId implementerText : Text} {implementer : Identifier} {finding : Finding F}
      (found : getFinding db findingId = .ok finding) :
      Begun H db actor (.startAction findingId implementerText) (.mutate (.start implementer finding))
  | duplicate {findingId source : Text} {content : Content} {args : EvidenceArgs} {finding : Finding F}
      (prepared : prepareEvidence H source content = .ok args)
      (found : getFinding db findingId = .ok finding) (status : finding.status = .pendingVerification) :
      Begun H db actor (.submitEvidence findingId source content) (.duplicate args finding)
  | persist {findingId source : Text} {content : Content} {args : EvidenceArgs} {finding : Finding F}
      (prepared : prepareEvidence H source content = .ok args)
      (found : getFinding db findingId = .ok finding) (status : finding.status = .inProgress) :
      Begun H db actor (.submitEvidence findingId source content) (.persist args finding)
  | verify {findingId notes : Text} {passed : Bool} {finding : Finding F}
      (found : getFinding db findingId = .ok finding)
      (independent : finding.implementer ≠ some actor.actorId ∧
        finding.evidenceSubmitter ≠ some actor.actorId) :
      Begun H db actor (.verify findingId passed notes) (.mutate (.verify passed notes finding))
  | close {findingId reason : Text} {finding : Finding F}
      (found : getFinding db findingId = .ok finding)
      (status : finding.status = .verified ∨ finding.status = .accepted) :
      Begun H db actor (.close findingId reason) (.mutate (.close reason finding))

theorem begun_of_begin {H : Digest} {db : Db F} {actor : ActorContext} {operation : Operation}
    {phase : Phase F} (h : begin H db actor operation = .ok phase) : Begun H db actor operation phase := by
  cases operation with
  | createFinding findingId controlId assetId title riskOwner severity =>
    obtain ⟨args, hchecked, h⟩ := bind_eq_ok.mp h
    cases h
    exact .create hchecked
  | upsertFinding findingId controlId assetId title riskOwner severity =>
    obtain ⟨args, hchecked, h⟩ := bind_eq_ok.mp h
    obtain ⟨again, hrechecked, h⟩ := bind_eq_ok.mp h
    cases h
    exact .upsert hchecked hrechecked
  | assessRisk findingId likelihood impact =>
    obtain ⟨u, -, h⟩ := bind_eq_ok.mp h
    obtain ⟨likelihood, -, h⟩ := bind_eq_ok.mp h
    obtain ⟨impact, -, h⟩ := bind_eq_ok.mp h
    obtain ⟨finding, hfound, h⟩ := bind_eq_ok.mp h
    cases h
    exact .assess hfound
  | proposeTreatment findingId treatment reason actionOwner dueDate =>
    obtain ⟨u, -, h⟩ := bind_eq_ok.mp h
    obtain ⟨treatment, -, h⟩ := bind_eq_ok.mp h
    obtain ⟨reason, -, h⟩ := bind_eq_ok.mp h
    obtain ⟨actionOwner, -, h⟩ := bind_eq_ok.mp h
    obtain ⟨dueDate, -, h⟩ := bind_eq_ok.mp h
    cases h
    exact .propose
  | approveTreatment findingId decision reason =>
    obtain ⟨u, -, h⟩ := bind_eq_ok.mp h
    obtain ⟨decision, -, h⟩ := bind_eq_ok.mp h
    obtain ⟨finding, hfound, h⟩ := bind_eq_ok.mp h
    split_ifs at h with howner
    · cases h
    · cases h
      exact .approve hfound howner
  | startAction findingId implementer =>
    obtain ⟨u, -, h⟩ := bind_eq_ok.mp h
    obtain ⟨implementer, -, h⟩ := bind_eq_ok.mp h
    obtain ⟨finding, hfound, h⟩ := bind_eq_ok.mp h
    cases h
    exact .start hfound
  | submitEvidence findingId source content =>
    obtain ⟨u, -, h⟩ := bind_eq_ok.mp h
    obtain ⟨args, hprepared, h⟩ := bind_eq_ok.mp h
    obtain ⟨finding, hfound, h⟩ := bind_eq_ok.mp h
    split_ifs at h with hpending hprogress
    · cases h
      exact .duplicate hprepared hfound hpending
    · cases h
    · cases h
      exact .persist hprepared hfound (not_not.mp hprogress)
  | verify findingId passed notes =>
    obtain ⟨u, -, h⟩ := bind_eq_ok.mp h
    obtain ⟨finding, hfound, h⟩ := bind_eq_ok.mp h
    split_ifs at h with hself
    · cases h
    · cases h
      exact .verify hfound (not_or.mp hself)
  | close findingId reason =>
    obtain ⟨u, -, h⟩ := bind_eq_ok.mp h
    obtain ⟨finding, hfound, h⟩ := bind_eq_ok.mp h
    split_ifs at h with hstatus
    · cases h
    · cases h
      exact .close hfound (by rwa [not_and_or, not_not, not_not] at hstatus)

/-- The two phases that another one follows. -/
inductive Follows : Phase F → Phase F → Prop
  | reassess (again args : FindingArgs) : Follows (.create again (some args)) (.reassess args)
  | commitEvidence (args : EvidenceArgs) (stored : EvidenceObject) (finding : Finding F)
      (intact : stored.sha256 = args.digest) :
      Follows (.persist args finding) (.commitEvidence args stored finding)

theorem conclude_ne_next (db : Db F) (k : Text) (outcome : Except PyError (Db F)) (phase : Phase F) :
    (conclude db k outcome).2 ≠ .next phase := by
  intro he
  cases outcome with
  | error e => cases he
  | ok db' =>
    simp only [conclude] at he
    split at he <;> cases he

variable [PyFloat F]

theorem follows_of_advance {H : Digest} {store : EvidenceStore S} {db : Db F} {objects : S}
    {p : Pending F} {stamp : Stamp F} {phase : Phase F}
    (h : (advance H store db objects p stamp).2 = .next phase) : Follows p.phase phase := by
  unfold advance at h
  cases hphase : p.phase with
  | create args upsert =>
    simp only [hphase] at h
    split at h
    · split_ifs at h
      cases h
      exact .reassess _ _
    · exact absurd h (conclude_ne_next _ _ _ _)
  | reassess args =>
    simp only [hphase] at h
    exact absurd h (conclude_ne_next _ _ _ _)
  | mutate change =>
    simp only [hphase] at h
    exact absurd h (conclude_ne_next _ _ _ _)
  | duplicate args finding =>
    simp only [hphase] at h
    split_ifs at h
  | persist args finding =>
    simp only [hphase] at h
    split at h
    · cases h
    · split_ifs at h with hintact
      cases h
      exact .commitEvidence _ _ _ (not_not.mp hintact)
  | commitEvidence args stored finding =>
    simp only [hphase] at h
    exact absurd h (conclude_ne_next _ _ _ _)

/-! ### Operations under way -/

/-- Where an operation under way comes from that a step leaves. -/
inductive Arises (H : Digest) (store : EvidenceStore S) (s : Sys F S) : Action F → Pending F → Prop
  | stays {a : Action F} {p : Pending F} (pending : some p ∈ s.pending) : Arises H store s a p
  | begins {actor : ActorContext} {operation : Operation} {recordId : Uuid} {phase : Phase F}
      (begun : Begun H s.db actor operation phase) :
      Arises H store s (.call actor operation recordId) ⟨actor, recordId, phase⟩
  | goesOn {i : ℕ} {stamp : Stamp F} {p : Pending F} {phase : Phase F}
      (taken : s.pending[i]? = some (some p))
      (advanced : (advance H store s.db s.objects p stamp).2 = .next phase) :
      Arises H store s (.resume i stamp) { p with phase }

theorem arises_of_next {H : Digest} {store : EvidenceStore S} {s : Sys F S} {a : Action F}
    {q : Pending F} (h : some q ∈ ((governance H store).next s a).pending) : Arises H store s a q := by
  cases a with
  | call actor operation recordId =>
    simp only [Machine.next, governance] at h
    split at h
    · rename_i phase hbegin
      rcases List.mem_append.mp h with h | h
      · exact .stays h
      · cases List.mem_singleton.mp h
        exact .begins (begun_of_begin hbegin)
    · exact .stays h
  | crash i =>
    rcases List.mem_or_eq_of_mem_set h with h | h
    · exact .stays h
    · cases h
  | resume i stamp =>
    simp only [Machine.next, governance] at h
    split at h
    · rename_i p hp
      split at h
      · rename_i phase hphase
        rcases List.mem_or_eq_of_mem_set h with h | h
        · exact .stays h
        · cases h
          exact .goesOn hp hphase
      · rcases List.mem_or_eq_of_mem_set h with h | h
        · exact .stays h
        · cases h
      · rcases List.mem_or_eq_of_mem_set h with h | h
        · exact .stays h
        · cases h
    · exact .stays h

end SentinelGRC.Governance

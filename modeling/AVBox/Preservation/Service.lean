import AVBox.Application.Jobs

/-!
# Admission to quarantine

`PreservationService.admitSource` copies a security-positive object to a path named by its SHA-256:
first into an `.incoming` file that must not exist yet, then by a rename.  `QuarantineSound` is
the invariant of the store: what lies under a digest hashes to it.
-/

namespace AVBox

open Program

/-- The calls of `admit` that may fail on the host. -/
inductive AdmitSite
  | makeDirectory
  | openSource
  | openTemporary
  | copy
  | changeMode
  | rename
  deriving DecidableEq, Repr

namespace PreservationService

/-- The path of an object in the quarantine is given by its SHA-256. -/
def quarantinePath (artifact : InputArtifact) : Digest 64 := artifact.hashes.sha256

/-- What `temporary.open("xb")` raises when an earlier admission left its file behind. -/
def fileExists (destination : Digest 64) : Exc :=
  ⟨.osError, "FileExistsError", s!"[Errno 17] File exists: '{destination.val}.incoming'"⟩

/-- The copy through the `.incoming` file.  One that fails leaves that file where it is. -/
def copyIn (fault : AdmitSite → Option Exc) (content : Bytes) (destination : Digest 64) :
    EStateM Exc Host Unit := do
  modify fun host => { host with incoming := Function.update host.incoming destination true }
  raiseIf (fault .copy)
  raiseIf (fault .changeMode)
  raiseIf (fault .rename)
  modify fun host =>
    { host with
      incoming := Function.update host.incoming destination false
      quarantine := Function.update host.quarantine destination (some content) }

/-- `admit`: nothing is copied when the destination is already there. -/
def admitSource (fault : AdmitSite → Option Exc) (content : Bytes) (artifact : InputArtifact)
    (verdict : Verdict) : EStateM Exc Host (Digest 64) := do
  let destination := quarantinePath artifact
  let host ← get
  if verdict.positive = false then
    throw (.value "only malicious, suspicious, or PUA objects may enter quarantine")
  else if (host.quarantine destination).isSome then
    return destination
  else
    raiseIf (fault .makeDirectory)
    raiseIf (fault .openSource)
    raiseIf (fault .openTemporary)
    if host.incoming destination then
      throw (fileExists destination)
    else
      copyIn fault content destination
      return destination

end PreservationService

/-- Every quarantined file hashes to the name it is stored under. -/
def QuarantineSound (sha256 : Bytes → Digest 64) (host : Host) : Prop :=
  ∀ digest content, host.quarantine digest = some content → sha256 content = digest

/-- The hosts agree on the tables, the job ids and the correlation log. -/
def Host.SameTables (host host' : Host) : Prop :=
  host'.jobs = host.jobs ∧ host'.scannerRuntime = host.scannerRuntime ∧
    host'.nextJobId = host.nextJobId ∧ host'.correlateCalls = host.correlateCalls

lemma Host.SameTables.refl (host : Host) : host.SameTables host := ⟨rfl, rfl, rfl, rfl⟩

lemma Host.SameTables.trans (a b c : Host) (hab : a.SameTables b) (hbc : b.SameTables c) :
    a.SameTables c :=
  ⟨hbc.1.trans hab.1, hbc.2.1.trans hab.2.1, hbc.2.2.1.trans hab.2.2.1,
    hbc.2.2.2.trans hab.2.2.2⟩

namespace PreservationService

variable {fault : AdmitSite → Option Exc} {content : Bytes} {artifact : InputArtifact}
  {verdict : Verdict} {host host' : Host} {destination : Digest 64}

/-- An admission that returns either found the object or stored the content it was given. -/
lemma admitSource_eq_ok (h : admitSource fault content artifact verdict host =
    .ok destination host') :
    destination = quarantinePath artifact ∧ verdict.positive = true ∧
      (((host.quarantine destination).isSome ∧ host' = host) ∨
        (host'.quarantine = Function.update host.quarantine destination (some content) ∧
          host.SameTables host')) := by
  unfold admitSource at h
  rw [get_bind_apply] at h
  split at h
  · simp at h
  · next hpositive =>
      have hpositive : verdict.positive = true := by simpa using hpositive
      split at h
      · next hfound =>
          obtain ⟨rfl, rfl⟩ := EStateM.Result.ok.inj h
          exact ⟨rfl, hpositive, .inl ⟨hfound, rfl⟩⟩
      · simp only [raiseIf_bind_eq_ok] at h
        obtain ⟨-, -, -, h⟩ := h
        split at h
        · simp at h
        · obtain ⟨⟨⟩, t, hcopy, hreturn⟩ := bind_eq_ok.1 h
          obtain ⟨rfl, rfl⟩ := EStateM.Result.ok.inj hreturn
          unfold copyIn at hcopy
          simp only [modify_bind_apply, raiseIf_bind_eq_ok] at hcopy
          obtain ⟨-, -, -, hcopy⟩ := hcopy
          obtain ⟨-, rfl⟩ := EStateM.Result.ok.inj hcopy
          exact ⟨rfl, hpositive, .inr ⟨rfl, rfl, rfl, rfl, rfl⟩⟩

lemma copyIn_moves (fault : AdmitSite → Option Exc) (content : Bytes) (destination : Digest 64) :
    Moves Host.SameTables (copyIn fault content destination) := by
  have hrefl := Host.SameTables.refl
  have htrans := Host.SameTables.trans
  refine Moves.bind htrans (Moves.modify fun _ => ⟨rfl, rfl, rfl, rfl⟩) fun _ => ?_
  refine Moves.bind htrans (Moves.raiseIf hrefl _) fun _ => ?_
  refine Moves.bind htrans (Moves.raiseIf hrefl _) fun _ => ?_
  refine Moves.bind htrans (Moves.raiseIf hrefl _) fun _ => ?_
  exact Moves.modify fun _ => ⟨rfl, rfl, rfl, rfl⟩

/-- An admission touches nothing but the quarantine, however it ends. -/
lemma admitSource_moves (fault : AdmitSite → Option Exc) (content : Bytes)
    (artifact : InputArtifact) (verdict : Verdict) :
    Moves Host.SameTables (admitSource fault content artifact verdict) := by
  have hrefl := Host.SameTables.refl
  have htrans := Host.SameTables.trans
  refine Moves.bind htrans (Moves.get hrefl) fun host => ?_
  refine Moves.ite (Moves.throw hrefl _) (Moves.ite (Moves.pure hrefl _) ?_)
  refine Moves.bind htrans (Moves.raiseIf hrefl _) fun _ => ?_
  refine Moves.bind htrans (Moves.raiseIf hrefl _) fun _ => ?_
  refine Moves.bind htrans (Moves.raiseIf hrefl _) fun _ => ?_
  refine Moves.ite (Moves.throw hrefl _) ?_
  exact Moves.bind htrans (copyIn_moves _ _ _) fun _ => Moves.pure hrefl _

end PreservationService

end AVBox

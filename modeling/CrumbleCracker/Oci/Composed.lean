import CrumbleCracker.Oci.Pull

/-!
# Properties of the store's programs that compose

A property that a sequence of programs has when its parts have it is proved of a program from the questions it asks.
`Closed` are such properties that the questions to the registry have, `Reading` those that looking at files has too, and
the programs that ask nothing else have them all. What a worker does for a layer has one when the steps that change the
layer's files have it (`LayerSteps`).
-/

namespace CrumbleCracker.Oci

/-- A property of programs that composes and that questions to the registry have. -/
structure Closed (K : (α : Type) → Host α → Prop) : Prop where
  done {α : Type} (a : α) : K α (.done a)
  bind {α β : Type} {x : Host α} {k : α → Host β} (hx : K α x) (hk : ∀ a, K β (k a)) : K β (x >>= k)
  request (digest : Text) (range : Option (Int × Option Int)) : K _ (Net.request digest range)
  body (n : Nat) : K _ (Net.body n)

/-- Looking at files has the property too. -/
structure Reading (K : (α : Type) → Host α → Prop) : Prop extends Closed K where
  stat (p : Place) : K _ (Os.stat p)
  readFile (p : Place) : K _ (Os.readFile p)
  readDir (p : Place) : K _ (Os.readDir p)

variable {K : (α : Type) → Host α → Prop}

theorem holds_ite {α : Type} {c : Prop} [Decidable c] {x y : Host α} (hx : K α x) (hy : K α y) :
    K α (if c then x else y) := by
  split
  · exact hx
  · exact hy

namespace Closed

variable (hk : Closed K)

include hk

theorem doRequest (digest : Text) (offset : Int) (r : Bool) : K _ (doRequest digest offset r) := by
  refine hk.bind (hk.request _ _) fun a => ?_
  cases a with
  | error e => exact hk.done _
  | ok resp => exact holds_ite (holds_ite (hk.done _) (hk.done _)) (hk.done _)

theorem doByteRange (digest : Text) (start stop total : Int) : K _ (doByteRange digest start stop total) := by
  refine hk.bind (hk.request _ _) fun a => ?_
  cases a with
  | error e => exact hk.done _
  | ok resp => exact holds_ite (hk.done _) (holds_ite (hk.done _) (hk.done _))

theorem boundedRead (n : Nat) : K _ (boundedRead n) := by
  refine holds_ite (hk.bind (hk.body _) fun a => ?_) (hk.bind (hk.body _) fun a => ?_)
  · cases a <;> exact hk.done _
  · cases a <;> exact hk.done _

theorem readBounded (fuel n : Nat) (got : Bytes) : K _ (readBounded fuel n got) := by
  induction fuel generalizing n got with
  | zero => exact hk.done _
  | succ fuel ih =>
    refine hk.bind (hk.boundedRead _) fun a => ?_
    cases a with
    | data b => exact ih _ _
    | eof | failed c => exact hk.done _

theorem readExactly (limit fuel : Nat) (got : Bytes) : K _ (readExactly limit fuel got) := by
  induction fuel generalizing got with
  | zero => exact hk.done _
  | succ fuel ih =>
    refine holds_ite (hk.done _) (hk.bind (hk.body _) fun a => ?_)
    cases a with
    | data b => exact ih _
    | eof => exact holds_ite (hk.done _) (hk.done _)
    | failed c => exact hk.done _

theorem readRemoteBlobRange (fuel : Nat) (digest : Text) (start stop total : Int) :
    K _ (readRemoteBlobRange fuel digest start stop total) := by
  refine hk.bind (hk.doByteRange _ _ _ _) fun a => ?_
  cases a with
  | error e => exact hk.done _
  | ok resp => exact holds_ite (hk.done _) (hk.readExactly _ _ _)

theorem fetchRemoteStargzTOCDocument (f : Formats) (fuel : Nat) (layer : Descriptor) :
    K _ (fetchRemoteStargzTOCDocument f fuel layer) := by
  refine holds_ite (hk.done _) (hk.bind (hk.readRemoteBlobRange _ _ _ _ _) fun a => ?_)
  cases a with
  | none => exact hk.done _
  | some footer =>
    dsimp only
    split
    · exact hk.done _
    · refine holds_ite (hk.done _) (hk.bind (hk.readRemoteBlobRange _ _ _ _ _) fun b => ?_)
      cases b <;> exact hk.done _

variable {p : Place} (hw : ∀ off data, K _ (Os.writeAt p off data))

include hw

theorem copyRange (start : Int) (size fuel written : Nat) : K _ (copyRange p start size fuel written) := by
  induction fuel generalizing written with
  | zero => exact hk.done _
  | succ fuel ih =>
    refine holds_ite (hk.done _) (hk.bind (hk.body _) fun a => ?_)
    cases a with
    | data b => exact hk.bind (hw _ _) fun _ => holds_ite (ih _) (hk.done _)
    | eof | failed c => exact hk.done _

theorem copyRemoteBlobRange (fuel : Nat) (layer : Descriptor) (start stop : Int) :
    K _ (copyRemoteBlobRange fuel layer p start stop) := by
  refine hk.bind (hk.doByteRange _ _ _ _) fun a => ?_
  cases a with
  | error e => exact hk.done _
  | ok resp =>
    exact holds_ite (hk.done _) (hk.bind (hk.copyRange hw _ _ _ _) fun _ => holds_ite (hk.done _) (hk.done _))

end Closed

namespace Reading

variable (hk : Reading K) (f : Formats) (root : Place) (fuel : Nat) (layer : Descriptor)

include hk

theorem localMembersOf (dir : Place) (excluded : Text) (names : List Text) :
    K _ (localMembersOf f dir excluded names) := by
  induction names with
  | nil => exact hk.done _
  | cons name names ih =>
    refine holds_ite ih (hk.bind (hk.readFile _) fun a => ?_)
    cases a with
    | none => exact ih
    | some blob =>
      dsimp only
      split
      · exact ih
      · exact hk.bind ih fun _ => holds_ite (hk.done _) (hk.done _)

theorem localStargzMembers (digest : Text) : K _ (localStargzMembers f root digest) := by
  refine hk.bind (hk.readDir _) fun a => ?_
  cases a with
  | absent | failed => exact hk.done _
  | entries names => exact hk.bind (hk.localMembersOf _ _ _ _) fun _ => hk.done _

theorem assemble {p : Place} (hw : ∀ off data, K _ (Os.writeAt p off data)) (steps : Nat) (ms : List PlannedMember) :
    K _ (assemble fuel layer p steps ms) := by
  induction steps generalizing ms with
  | zero => cases ms <;> exact hk.done _
  | succ steps ih =>
    cases ms with
    | nil => exact hk.done _
    | cons m ms =>
      unfold Oci.assemble
      split
      · refine hk.bind (hk.bind (hk.readFile _) fun a => ?_) fun _ => holds_ite (ih _) (hk.done _)
        cases a with
        | none => exact hk.done _
        | some blob => exact hk.bind (hw _ _) fun _ => hk.done _
      · refine hk.bind (hk.copyRemoteBlobRange hw _ _ _ _) fun a => ?_
        cases a with
        | ok u => exact ih _
        | error e => exact hk.done _

theorem cachedLayerBlobAvailable : K _ (cachedLayerBlobAvailable f root layer) := by
  refine hk.bind (hk.stat _) fun a => ?_
  cases a <;> exact hk.done _

theorem cachedLayerArchiveAvailable : K _ (cachedLayerArchiveAvailable f root layer) := by
  refine hk.bind (hk.readFile _) fun a => ?_
  cases a with
  | none => exact hk.done _
  | some index =>
    refine holds_ite (hk.bind (hk.stat _) fun s => ?_) (hk.done _)
    cases s <;> exact hk.done _

theorem cachedStargzLayerAvailable : K _ (cachedStargzLayerAvailable f root layer) := by
  refine hk.bind (hk.readFile _) fun a => ?_
  cases a with
  | none => exact hk.done _
  | some index => exact holds_ite (hk.cachedLayerBlobAvailable f root layer) (hk.done _)

end Reading

section Layer

variable {f : Formats} {root : Place} {fuel : Nat} {layer : Descriptor}

/-- The steps that change a layer's files have the property. -/
structure LayerSteps (K : (α : Type) → Host α → Prop) (f : Formats) (root : Place) (fuel : Nat) (layer : Descriptor) :
    Prop extends Reading K where
  blobDir : K _ (Os.mkdirAll (blobPath f root layer.digest).dir)
  removePartial : K _ (Os.remove (partialPath f root layer.digest))
  cacheLayerBlob : K _ (cacheLayerBlob f root fuel layer)
  streamLayer (resp : Response) : K _ (streamLayer f root fuel layer resp)
  prepareLayerArchiveFromBlob : K _ (prepareLayerArchiveFromBlob f root layer)
  prepareStargzLayerFromBlob : K _ (prepareStargzLayerFromBlob f root layer)
  createDelta : K _ (Os.create (deltaPath f root layer.digest) .trunc)
  truncateDelta (n : Int) : K _ (Os.truncate (deltaPath f root layer.digest) n)
  writeDelta (off : Int) (data : Bytes) : K _ (Os.writeAt (deltaPath f root layer.digest) off data)
  removeDelta : K _ (Os.remove (deltaPath f root layer.digest))
  publishAssembled : K _ (publishAssembled f root layer)

namespace LayerSteps

variable (hk : LayerSteps K f root fuel layer)

include hk

theorem downloadAndPrepareLayer : K _ (downloadAndPrepareLayer f root fuel layer) := by
  have hrequest : K _ (requestLayer f root fuel layer) := by
    refine hk.bind (hk.doRequest _ _ _) fun a => ?_
    cases a with
    | error e => exact hk.done _
    | ok resp => exact hk.streamLayer resp
  refine hk.bind hk.blobDir fun _ => holds_ite (hk.bind (hk.stat _) fun a => ?_) (hk.done _)
  cases a with
  | regular size => exact holds_ite (hk.done _) hrequest
  | absent | failed => exact hrequest
  | other => exact hk.done _

theorem reconstruct (planned : List PlannedMember) : K _ (reconstruct f root fuel layer planned) := by
  have hassemble : K _ (assembleBlob f root fuel layer planned) := by
    refine hk.bind (hk.truncateDelta _) fun _ =>
      holds_ite (hk.bind (hk.assemble _ _ hk.writeDelta _ _) fun a => ?_) (hk.done _)
    rcases a with (_ | _) | _
    · exact hk.done _
    · exact hk.done _
    · exact hk.publishAssembled
  refine hk.bind hk.blobDir fun _ => holds_ite (hk.bind hk.createDelta fun _ => ?_) (hk.done _)
  refine holds_ite (hk.bind hassemble fun a => ?_) (hk.done _)
  rcases a with e | _ | _
  · exact hk.bind hk.removeDelta fun _ => hk.done _
  · exact hk.bind hk.removeDelta fun _ => hk.done _
  · exact hk.done _

theorem tryReconstructStargzLayer : K _ (tryReconstructStargzLayer f root fuel layer) := by
  refine hk.bind (hk.fetchRemoteStargzTOCDocument _ _ _) fun a => ?_
  cases a with
  | none => exact hk.done _
  | some a =>
    refine holds_ite (hk.bind (hk.localStargzMembers _ _ _) fun b => ?_) (hk.done _)
    cases b with
    | none => exact hk.done _
    | some available => exact holds_ite (hk.done _) (hk.reconstruct _)

theorem prepareCachedLayer (keep : Bool) : K _ (prepareCachedLayer f root layer keep) := by
  have harchive : K _ ((do
      if ← Oci.prepareLayerArchiveFromBlob f root layer then return .ok () else return .error .failed) :
      Host (Except Failure Unit)) :=
    hk.bind hk.prepareLayerArchiveFromBlob fun _ => holds_ite (hk.done _) (hk.done _)
  refine holds_ite (hk.bind hk.prepareStargzLayerFromBlob fun a => ?_) harchive
  rcases a with e | _ | _
  · exact hk.done _
  · exact harchive
  · exact hk.done _

theorem ensureCompressedLayer : K _ (ensureCompressedLayer f root fuel layer) := by
  refine hk.bind hk.tryReconstructStargzLayer fun a => ?_
  rcases a with e | _ | _
  · exact hk.done _
  · exact hk.bind hk.cacheLayerBlob fun _ => holds_ite (hk.prepareCachedLayer true) (hk.done _)
  · refine hk.bind hk.prepareStargzLayerFromBlob fun b => ?_
    rcases b with e | _ | _ <;> exact hk.done _

theorem resumeLayer : K _ (resumeLayer f root fuel layer) :=
  hk.bind hk.cacheLayerBlob fun _ => holds_ite (hk.prepareCachedLayer false) (hk.done _)

theorem streamOrResume : K _ (streamOrResume f root fuel layer) := by
  refine hk.bind hk.downloadAndPrepareLayer fun a => ?_
  rcases a with (_ | _) | _
  · exact hk.resumeLayer
  · exact hk.done _
  · exact hk.done _

theorem ensureUnpackedLayer : K _ (ensureUnpackedLayer f root fuel layer) := by
  refine hk.bind (hk.stat _) fun a => ?_
  cases a with
  | failed => exact hk.done _
  | absent => exact hk.streamOrResume
  | other => exact hk.resumeLayer
  | regular size =>
    cases size with
    | zero => exact hk.bind hk.removePartial fun _ => hk.streamOrResume
    | succ n => exact hk.resumeLayer

theorem ensureLayerArchive (keep : Bool) : K _ (ensureLayerArchive f root fuel layer keep) := by
  refine hk.bind (holds_ite (hk.cachedStargzLayerAvailable _ _ _) (hk.done _)) fun _ => holds_ite (hk.done _) ?_
  refine hk.bind (hk.cachedLayerArchiveAvailable _ _ _) fun _ => holds_ite (hk.done _) ?_
  refine hk.bind (hk.cachedLayerBlobAvailable _ _ _) fun _ => holds_ite (hk.prepareCachedLayer keep) ?_
  exact holds_ite hk.ensureCompressedLayer hk.ensureUnpackedLayer

end LayerSteps

end Layer

end CrumbleCracker.Oci

import CrumbleCracker.Oci.Layers

/-!
# A pull of an image

`ensureLayerArchive` is what a worker does for one layer. `pullOCIDirect` prepares the layers that are not cached with
a few workers at once, which take them from a channel, while the pull applies the layers in order, waiting for each. The
runs of a pull (`PullRun`) are the runs of its beginning followed by the interleaved runs of the workers and the rest.
-/

namespace CrumbleCracker.Oci

structure Manifest where
  config : Descriptor
  layers : List Descriptor

section Ensure

variable (f : Formats) (root : Place) (fuel : Nat)

/-- A cached blob made into an eStargz index or an archive. -/
def prepareCachedLayer (layer : Descriptor) (keepCompressed : Bool) : Host (Except Failure Unit) := do
  if keepCompressed then
    match ← prepareStargzLayerFromBlob f root layer with
    | .error e => return .error e
    | .ok true => return .ok ()
    | .ok false => if ← prepareLayerArchiveFromBlob f root layer then return .ok () else return .error .failed
  else if ← prepareLayerArchiveFromBlob f root layer then return .ok ()
  else return .error .failed

/-- The layer that stays compressed: put together from older ones, or downloaded whole. -/
def ensureCompressedLayer (layer : Descriptor) : Host (Except Failure Unit) := do
  match ← tryReconstructStargzLayer f root fuel layer with
  | .error e => return .error e
  | .ok true =>
    match ← prepareStargzLayerFromBlob f root layer with
    | .ok true => return .ok ()
    | _ => return .error .failed
  | .ok false =>
    if ← cacheLayerBlob f root fuel layer then prepareCachedLayer f root layer true else return .error .failed

def resumeLayer (layer : Descriptor) : Host (Except Failure Unit) := do
  if ← cacheLayerBlob f root fuel layer then prepareCachedLayer f root layer false else return .error .failed

/-- The streamed download of a layer, with the resumed one behind it. -/
def streamOrResume (layer : Descriptor) : Host (Except Failure Unit) := do
  match ← downloadAndPrepareLayer f root fuel layer with
  | .ok () => return .ok ()
  | .error .failed => return .error .failed
  | .error .incomplete => resumeLayer f root fuel layer

/-- `ensureLayerArchive` for a layer of which nothing is cached and that is to be unpacked. -/
def ensureUnpackedLayer (layer : Descriptor) : Host (Except Failure Unit) := do
  match ← Os.stat (partialPath f root layer.digest) with
  | .failed => return .error .failed
  | .absent => streamOrResume f root fuel layer
  | .regular 0 => do
    let _ ← Os.remove (partialPath f root layer.digest)
    streamOrResume f root fuel layer
  | _ => resumeLayer f root fuel layer

def ensureLayerArchive (layer : Descriptor) (keepCompressed : Bool) : Host (Except Failure Unit) := do
  if ← (if keepCompressed then cachedStargzLayerAvailable f root layer else return false) then return .ok ()
  else if ← cachedLayerArchiveAvailable f root layer then return .ok ()
  else if ← cachedLayerBlobAvailable f root layer then prepareCachedLayer f root layer keepCompressed
  else if keepCompressed then ensureCompressedLayer f root fuel layer
  else ensureUnpackedLayer f root fuel layer

end Ensure

section Apply

variable (f : Formats) (root : Place)

def copyFile (src dst : Place) : Host Bool := do
  match ← Os.readFile src with
  | none => return false
  | some data => writeFile dst data

def linkOrCopyLayerContents (src dst : Place) : Host Bool := do
  if ← Os.mkdirAll dst.dir then
    match ← Os.stat dst with
    | .failed => return false
    | .absent => if ← Os.link src dst then return true else copyFile src dst
    | _ =>
      match ← Os.stat src with
      | .regular _ | .other => Os.sameFile src dst
      | _ => return false
  else return false

def applyLayerArchive (indexPath : Place) : Host Bool := do
  match ← Os.readFile indexPath with
  | none => return false
  | some index => return f.appliesIndex index

/-- The last case of `writeAndApplyCachedLayer`: the archive is made from the blob first. -/
def writeAndApplyBlob (layer : Descriptor) (dst : Place) : Host Bool := do
  match ← Os.readFile (blobPath f root layer.digest) with
  | none => return false
  | some blob =>
    match ← writeLayerArchiveAtomic f root layer (return some blob) with
    | none => return false
    | some _ => do
      let _ ← Os.remove (blobPath f root layer.digest)
      if ← linkOrCopyLayerContents (layerContentsPath f root layer.digest) dst then
        applyLayerArchive f (layerIndexPath f root layer.digest)
      else return false

def writeAndApplyCachedLayer (layer : Descriptor) (dst : Place) : Host Bool := do
  if ← cachedStargzLayerAvailable f root layer then
    if ← linkOrCopyLayerContents (blobPath f root layer.digest) dst then
      applyLayerArchive f (stargzLayerIndexPath f root layer.digest)
    else return false
  else if ← cachedLayerArchiveAvailable f root layer then
    if ← linkOrCopyLayerContents (layerContentsPath f root layer.digest) dst then
      applyLayerArchive f (layerIndexPath f root layer.digest)
    else return false
  else writeAndApplyBlob f root layer dst

end Apply

section Pull

variable (f : Formats) (root : Place) (key : Text) (fuel : Nat) (mani : Manifest) (keepCompressed : Bool)

def tmpBlobsName : Text := ['b', 'l', 'o', 'b', 's']

def layersName : Text := ['l', 'a', 'y', 'e', 'r', 's']

def tmpSuffix : Text := ['.', 't', 'm', 'p']

def contentsSuffix : Text := ['.', 'c', 'o', 'n', 't', 'e', 'n', 't', 's']

def stargzSuffix : Text := ['.', 's', 't', 'a', 'r', 'g', 'z']

def indexName : Text := ['r', 'o', 'o', 't', 'f', 's', '.', 'i', 'n', 'd', 'e', 'x']

def metadataName : Text := ['i', 'm', 'a', 'g', 'e', '.', 'j', 's', 'o', 'n']

/-- The directory of the image, `key` being its name in the shared store. -/
def imageDir : Place := root ++ [key]

def tmpDir : Place := root ++ [key ++ tmpSuffix]

/-- Where the contents of a layer stand in the image. -/
def layerFile (digest suffix : Text) : Place :=
  (tmpDir root key ++ [layersName]).walk (digestToFileName f digest ++ suffix)

/-- What each layer waits for: nothing when it is cached, else the layer of its digest that was sent to the workers. -/
def planLayers : (sent : List (Text × Nat)) → (i : Nat) → List Descriptor → Host (List (Option Nat))
  | _, _, [] => return []
  | sent, i, layer :: rest => do
    if ← cachedLayerArchiveAvailable f root layer then
      let waits ← planLayers sent (i + 1) rest
      return none :: waits
    else if ← cachedStargzLayerAvailable f root layer then
      let waits ← planLayers sent (i + 1) rest
      return none :: waits
    else
      match sent.lookup layer.digest with
      | some j => do
        let waits ← planLayers sent (i + 1) rest
        return some j :: waits
      | none => do
        Chan.send i
        let waits ← planLayers ((layer.digest, i) :: sent) (i + 1) rest
        return some i :: waits

/-- The plan of the layers, once the configuration is decoded. -/
def planImage (cfg : Bytes) : Host (Option (List (Option Nat))) := do
  if f.decodesConfig cfg then
    let waits ← planLayers f root [] 0 mani.layers
    return some waits
  else return none

/-- `pullOCIDirect` up to its workers. -/
def beginPull : Host (Option (List (Option Nat))) := do
  if ← Os.removeAll (tmpDir root key) then
    if ← Os.mkdirAll (tmpDir root key ++ [tmpBlobsName]) then
      if ← Os.mkdirAll (tmpDir root key ++ [layersName]) then
        match ← fetchBlob f root fuel mani.config with
        | none => return none
        | some cfg => planImage f root mani cfg
      else return none
    else return none
  else return none

/-- A worker: it takes layers until none is left. -/
def worker : (rounds : Nat) → Host Unit
  | 0 => return ()
  | rounds + 1 => do
    match ← Chan.next with
    | none => return ()
    | some i =>
      match mani.layers[i]? with
      | none => return ()
      | some layer => do
        let r ← ensureLayerArchive f root fuel layer keepCompressed
        Chan.finish i (match r with | .ok _ => true | .error _ => false)
        worker rounds

def applyLayer (layer : Descriptor) (waits : Option Nat) : Host Bool := do
  if ← (match waits with | some i => Chan.await i | none => return true) then
    if ← cachedStargzLayerAvailable f root layer then
      writeAndApplyCachedLayer f root layer (layerFile f root key layer.digest stargzSuffix)
    else writeAndApplyCachedLayer f root layer (layerFile f root key layer.digest contentsSuffix)
  else return false

def applyLayers : List (Descriptor × Option Nat) → Host Bool
  | [] => return true
  | (layer, waits) :: rest => do
    if ← applyLayer f root key layer waits then applyLayers rest else return false

/-- `finalizeIndexedImage` and `writeMetadata`. -/
def finalizeIndexedImage (index metadata : Bytes) : Host Unit := do
  if ← writeFile (tmpDir root key ++ [indexName]) index then
    if ← Os.removeAll (imageDir root key) then
      if ← Os.rename (tmpDir root key) (imageDir root key) then
        if ← Os.mkdirAll (imageDir root key) then
          let _ ← writeFile (imageDir root key ++ [metadataName]) metadata
          return ()
        else return ()
      else return ()
    else return ()
  else return ()

/-- `pullOCIDirect` beside its workers. -/
def finishPull (waits : List (Option Nat)) (index metadata : Bytes) : Host Unit := do
  if ← applyLayers f root key (mani.layers.zip waits) then finalizeIndexedImage root key index metadata else return ()

/-- A run of a pull from a world: stopped or failed before its workers start, or with them. -/
inductive PullRun (w : World) : List (Dialog.Event Call Call.Answer) → Prop
  | beginning {es : List (Dialog.Event Call Call.Answer)} {w' : World} {r : Option (Option (List (Option Nat)))}
      (h : Dialog.Run Does w (beginPull f root key fuel mani) es w' r) : PullRun w es
  | whole {es es' : List (Dialog.Event Call Call.Answer)} {w' w'' : World} {waits : List (Option Nat)}
      {index metadata : Bytes} {xs : List (Host Unit)}
      (h : Dialog.Run Does w (beginPull f root key fuel mani) es w' (some (some waits)))
      (h' : Dialog.Pool Does w' (finishPull f root key mani waits index metadata ::
        List.replicate (min (if keepCompressed then 4 else 2) w'.jobs.length)
          (worker f root fuel mani keepCompressed (mani.layers.length + 1))) es' w'' xs) : PullRun w (es ++ es')

end Pull

end CrumbleCracker.Oci

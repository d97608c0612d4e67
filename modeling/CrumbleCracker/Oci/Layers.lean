import CrumbleCracker.Oci.Host

/-!
# Blobs and layers of a pull

How a pull gets the blobs and layers of an image into the store: `fetchBlob` for the configuration,
`cacheLayerBlob` with its resumed downloads, `downloadAndPrepareLayer` that indexes a layer while it streams,
`tryReconstructStargzLayer` that puts a layer together from older ones, and `ensureLayerArchive` over them. The programs
are `Host` dialogs: every file operation and every read of the network is a question to the host, in the source's order.

What the formats (SHA-256, tar, gzip, zstd, eStargz, JSON) make of bytes is `Formats`. A read of a body that never ends
is cut by `fuel`, as a cancelled context would cut it.
-/

namespace CrumbleCracker.Oci

def isHexDigit (c : Char) : Bool := ('0' ≤ c && c ≤ '9') || ('a' ≤ c && c ≤ 'f')

def IsHexSum (t : Text) : Prop := t.length = 64 ∧ ∀ c ∈ t, isHexDigit c = true

/-- A member of the delta index of an eStargz blob. -/
structure DeltaMember where
  digest : Text
  offset : Int
  size : Int
  deriving DecidableEq

/-- What `prepareStargzLayerFromBlob` finds in a blob: no eStargz layer, a broken one, or one with its overlay index. -/
inductive StargzBlob
  | ordinary
  | invalid
  | index (bytes : Bytes)

structure Formats where
  /-- The SHA-256 sum of some bytes, in hexadecimal. -/
  sum256 : Bytes → Text
  /-- The SHA-256 sum of a string's bytes, in hexadecimal. -/
  sumText : Text → Text
  hexSum256 : ∀ b, IsHexSum (sum256 b)
  hexSumText : ∀ t, IsHexSum (sumText t)
  /-- The index and the contents `writeLayerArchive` makes of a whole layer. -/
  layerArchive : (mediaType : Text) → Bytes → Option (Bytes × Bytes)
  /-- The decoder fails on a body that begins like this. -/
  rejects : (mediaType : Text) → Bytes → Bool
  /-- Where the footer says the table of contents is. -/
  parseFooter : Bytes → Option Int
  decodeTOC : Bytes → Option (List DeltaMember)
  /-- The members of the delta index of a blob, with the place of its table of contents. -/
  readTOC : Bytes → Option (List DeltaMember × Int)
  stargzIndex : Bytes → StargzBlob
  /-- An index `applyLayerArchive` can read. -/
  appliesIndex : Bytes → Bool
  /-- A configuration `json.Unmarshal` takes. -/
  decodesConfig : Bytes → Bool
  someConfig : ∃ b, decodesConfig b = true

structure Descriptor where
  mediaType : Text
  digest : Text
  size : Int
  deriving DecidableEq

/-- Why a layer was not prepared: `errStreamedLayerIncomplete`, or anything else. -/
inductive Failure
  | incomplete
  | failed
  deriving DecidableEq

def shaPrefix : Text := ['s', 'h', 'a', '2', '5', '6', ':']

def blobsName : Text := ['_', 'b', 'l', 'o', 'b', 's']

def layerArchiveDirName : Text := ['_', 'l', 'a', 'y', 'e', 'r', 's', '_', 'v', '1']

def stargzLayerDirName : Text := ['_', 's', 't', 'a', 'r', 'g', 'z', '_', 'v', '1']

def layerIndexName : Text := ['l', 'a', 'y', 'e', 'r', '.', 'i', 'n', 'd', 'e', 'x']

def layerContentsName : Text := ['l', 'a', 'y', 'e', 'r', '.', 'c', 'o', 'n', 't', 'e', 'n', 't', 's']

def partialSuffix : Text := ['.', 'p', 'a', 'r', 't', 'i', 'a', 'l']

def deltaSuffix : Text := ['.', 'd', 'e', 'l', 't', 'a'] ++ partialSuffix

/-- `CCLAYER1`. -/
def layerArchiveMagic : Bytes := [67, 67, 76, 65, 89, 69, 82, 49]

/-- `strings.EqualFold` against a text of ASCII characters: besides the other case, U+017F folds to `s` and U+212A
to `k`. -/
def foldChar (c : Char) : Char :=
  if 'A' ≤ c ∧ c ≤ 'Z' then Char.ofNat (c.toNat + 32)
  else if c.toNat = 0x17F then 's' else if c.toNat = 0x212A then 'k' else c

def equalFold (s t : Text) : Bool := s.map foldChar = t.map foldChar

section Paths

variable (f : Formats) (root : Place)

def digestToFileName (digest : Text) : Text :=
  if shaPrefix <+: digest then digest.drop shaPrefix.length else f.sumText digest

def blobPath (digest : Text) : Place := (root ++ [blobsName]).walk (digestToFileName f digest)

def partialPath (digest : Text) : Place := (blobPath f root digest).extend partialSuffix

def deltaPath (digest : Text) : Place := (blobPath f root digest).extend deltaSuffix

def layerArchiveDir (digest : Text) : Place := (root ++ [layerArchiveDirName]).walk (digestToFileName f digest)

def layerIndexPath (digest : Text) : Place := layerArchiveDir f root digest ++ [layerIndexName]

def layerContentsPath (digest : Text) : Place := layerArchiveDir f root digest ++ [layerContentsName]

def stargzLayerDir (digest : Text) : Place := (root ++ [stargzLayerDirName]).walk (digestToFileName f digest)

def stargzLayerIndexPath (digest : Text) : Place := stargzLayerDir f root digest ++ [layerIndexName]

end Paths

section Requests

/-- A response `doRequest` hands to its caller; the authorization round trip is part of the request. -/
def doRequest (digest : Text) (offset : Int) (requireContentLength : Bool) : Host (Except NetError Response) := do
  match ← Net.request digest (if 0 < offset then some (offset, none) else none) with
  | .error e => return .error e
  | .ok resp =>
    if resp.status = 200 ∨ (0 < offset ∧ resp.status = 206) then
      if requireContentLength = true ∧ resp.contentLength ≤ 0 then return .error ⟨none, false⟩ else return .ok resp
    else return .error ⟨some resp.status, false⟩

inductive RangeError
  | unsupported
  | failed

/-- `doByteRange` and `validateBoundedBlobContentRange`: a partial response for exactly this range. -/
def doByteRange (digest : Text) (start stop total : Int) : Host (Except RangeError Response) := do
  match ← Net.request digest (some (start, some stop)) with
  | .error _ => return .error .failed
  | .ok resp =>
    if resp.status = 200 then return .error .unsupported
    else if resp.status = 206 ∧ resp.contentRange = some (start, stop, total) then return .ok resp
    else return .error .failed

/-- `boundedBody.Read` with so many bytes to come. -/
def boundedRead (remaining : Nat) : Host Chunk := do
  if remaining = 0 then
    match ← Net.body 1 with
    | .data _ => return .failed false
    | .eof | .failed _ => return .eof
  else
    match ← Net.body remaining with
    | .data b => return .data (b.take remaining)
    | .eof => return .failed false
    | .failed c => return .failed c

def readBounded : (fuel remaining : Nat) → (got : Bytes) → Host (Option Bytes)
  | 0, _, _ => return none
  | fuel + 1, remaining, got => do
    match ← boundedRead remaining with
    | .data b => readBounded fuel (remaining - b.length) (got ++ b)
    | .eof => return some got
    | .failed _ => return none

/-- `download.ReadAll` of exactly `limit` bytes: at most one byte more is read. -/
def readExactly (limit : Nat) : (fuel : Nat) → (got : Bytes) → Host (Option Bytes)
  | 0, _ => return none
  | fuel + 1, got => do
    if limit < got.length then return none
    else
      match ← Net.body (limit + 1 - got.length) with
      | .data b => readExactly limit fuel (got ++ b.take (limit + 1 - got.length))
      | .eof => if got.length = limit then return some got else return none
      | .failed _ => return none

/-- `retryableBlobDownloadError` of a request. -/
def NetError.retryable (e : NetError) : Bool := !e.cancelled && match e.status with
  | none => true
  | some code => code = 408 || code = 429 || 500 ≤ code

end Requests

section Blobs

variable (f : Formats) (root : Place) (fuel : Nat)

def trimSHA256 (value : Text) : Text :=
  if shaPrefix <+: value ∧ shaPrefix.length < value.length then value.drop shaPrefix.length else value

/-- `getRawBlob`: the whole blob, of the size and the digest of its descriptor. -/
def getRawBlob (blob : Descriptor) : Host (Option Bytes) := do
  match ← doRequest blob.digest 0 true with
  | .error _ => return none
  | .ok resp =>
    if blob.size ≤ 0 ∨ resp.contentLength ≠ blob.size then return none
    else
      match ← readBounded fuel resp.contentLength.toNat [] with
      | none => return none
      | some data => if f.sum256 data = trimSHA256 blob.digest then return some data else return none

/-- `os.WriteFile`: the file is cut first and then written. -/
def writeFile (p : Place) (data : Bytes) : Host Bool := do
  if ← Os.create p .trunc then
    let n ← Os.append p data
    return n = data.length
  else return false

def fetchBlob (blob : Descriptor) : Host (Option Bytes) := do
  match ← Os.readFile (blobPath f root blob.digest) with
  | some data => return some data
  | none =>
    match ← getRawBlob f fuel blob with
    | none => return none
    | some data =>
      if ← Os.mkdirAll (blobPath f root blob.digest).dir then
        let _ ← writeFile (blobPath f root blob.digest) data
        return some data
      else return some data

inductive CopyEnd
  | complete
  | retry
  | fatal
  deriving DecidableEq

/-- `download.Copy` into the partial file and the hash: at most one byte over the limit is read. -/
def copyBody (p : Place) (limit : Nat) : (fuel written : Nat) → (hashed : Bytes) → Host (CopyEnd × Nat × Bytes)
  | 0, written, hashed => return (.fatal, written, hashed)
  | fuel + 1, written, hashed => do
    if limit < written then return (.fatal, written, hashed)
    else
      match ← Net.body (limit + 1 - written) with
      | .data b => do
        let n ← Os.append p (b.take (limit + 1 - written))
        if n = (b.take (limit + 1 - written)).length then
          copyBody p limit fuel (written + n) (hashed ++ b.take (limit + 1 - written))
        else return (.fatal, written, hashed)
      | .eof => if written = limit then return (.complete, written, hashed) else return (.retry, written, hashed)
      | .failed true => return (.fatal, written, hashed)
      | .failed false => return (.retry, written, hashed)

/-- What a response means for a partial file of `offset` bytes: it starts again on a full response, and goes on only
with the range it asked for. -/
def resumeAt (layer : Descriptor) (p : Place) (resp : Response) (offset : Int) (hashed : Bytes) :
    Host (Option (Int × Bytes)) := do
  if 0 < offset ∧ resp.status = 200 then
    if ← Os.truncate p 0 then return some (0, []) else return none
  else if 0 < offset ∧ resp.contentRange ≠ some (offset, layer.size - 1, layer.size) then do
    let _ ← Os.remove p
    return none
  else return some (offset, hashed)

/-- The end of `cacheLayerBlob`: the verified partial file becomes the blob. -/
def publishPartial (p q : Place) : Host Bool := do
  if ← Os.close p then Os.rename p q else return false

/-- The download loop of `cacheLayerBlob`, with the hash of what the partial file holds. -/
def downloadPartial (layer : Descriptor) (p q : Place) :
    (fuel : Nat) → (restarted : Bool) → (offset : Int) → (hashed : Bytes) → Host Bool
  | 0, _, _, _ => return false
  | fuel + 1, restarted, offset, hashed => do
    if offset < layer.size then
      match ← doRequest layer.digest offset false with
      | .error e => if e.retryable then downloadPartial layer p q fuel restarted offset hashed else return false
      | .ok resp =>
        match ← resumeAt layer p resp offset hashed with
        | none => return false
        | some (offset, hashed) =>
          if 0 ≤ resp.contentLength ∧ resp.contentLength ≠ layer.size - offset then return false
          else
            match ← copyBody p (layer.size - offset).toNat fuel 0 hashed with
            | (.fatal, _, _) => return false
            | (_, written, hashed) => downloadPartial layer p q fuel restarted (offset + written) hashed
    else if equalFold (shaPrefix ++ f.sum256 hashed) layer.digest then publishPartial p q
    else if restarted = false then
      if ← Os.truncate p 0 then downloadPartial layer p q fuel true 0 [] else return false
    else do
      let _ ← Os.remove p
      return false

/-- `preparePartialBlob`: the bytes of the partial file, emptied when it is longer than the layer. -/
def preparePartialBlob (layer : Descriptor) (p : Place) : Host (Option Bytes) := do
  match ← Os.stat p with
  | .regular size =>
    if layer.size < size then
      if ← Os.truncate p 0 then Os.readFile p else return none
    else Os.readFile p
  | _ => return none

/-- `cacheLayerBlob` once no blob is in its place. -/
def downloadBlob (layer : Descriptor) : Host Bool := do
  if ← Os.mkdirAll (blobPath f root layer.digest).dir then
    if ← Os.create (partialPath f root layer.digest) .keep then
      match ← preparePartialBlob layer (partialPath f root layer.digest) with
      | none => return false
      | some held =>
        downloadPartial f layer (partialPath f root layer.digest) (blobPath f root layer.digest) fuel false held.length
          held
    else return false
  else return false

def cacheLayerBlob (layer : Descriptor) : Host Bool := do
  match ← Os.stat (blobPath f root layer.digest) with
  | .regular size =>
    if size = layer.size then return true
    else if ← Os.remove (blobPath f root layer.digest) then downloadBlob f root fuel layer
    else return false
  | _ => downloadBlob f root fuel layer

end Blobs

section Archives

variable (f : Formats) (root : Place) (fuel : Nat)

def cachedLayerBlobAvailable (layer : Descriptor) : Host Bool := do
  match ← Os.stat (blobPath f root layer.digest) with
  | .regular size => return size = layer.size
  | _ => return false

def cachedLayerArchiveAvailable (layer : Descriptor) : Host Bool := do
  match ← Os.readFile (layerIndexPath f root layer.digest) with
  | some index =>
    if layerArchiveMagic <+: index then
      match ← Os.stat (layerContentsPath f root layer.digest) with
      | .regular _ => return true
      | _ => return false
    else return false
  | none => return false

def cachedStargzLayerAvailable (layer : Descriptor) : Host Bool := do
  match ← Os.readFile (stargzLayerIndexPath f root layer.digest) with
  | some index => if layerArchiveMagic <+: index then cachedLayerBlobAvailable f root layer else return false
  | none => return false

/-- `writeLayerArchive` into two new files; the body is read to its end, and its bytes are returned. -/
def writeLayerArchive (index contents : Place) (mediaType : Text) (readBody : Host (Option Bytes)) :
    Host (Option Bytes) := do
  if ← Os.create index .excl then
    if ← Os.create contents .excl then
      match ← readBody with
      | none => return none
      | some body =>
        match f.layerArchive mediaType body with
        | none => return none
        | some (ix, ct) => do
          let n ← Os.append contents ct
          if n = ct.length then do
            let m ← Os.append index ix
            if m = ix.length then
              if ← Os.close index then
                if ← Os.close contents then return some body else return none
              else return none
            else return none
          else return none
    else return none
  else return none

def layerPattern : Text := ['.', 'l', 'a', 'y', 'e', 'r', '-']

def stargzPattern : Text := ['.', 's', 't', 'a', 'r', 'g', 'z', '-']

/-- The rename that publishes an archive; one that is already there will do. -/
def publishArchive (layer : Descriptor) (tmp : Place) (body : Bytes) : Host (Option Bytes) := do
  if ← Os.rename tmp (layerArchiveDir f root layer.digest) then return some body
  else if ← cachedLayerArchiveAvailable f root layer then return some body
  else return none

/-- `writeLayerArchiveAtomic`, with the bytes of the body it has read. -/
def writeLayerArchiveAtomic (layer : Descriptor) (readBody : Host (Option Bytes)) : Host (Option Bytes) := do
  if ← cachedLayerArchiveAvailable f root layer then return some []
  else if ← Os.mkdirAll (layerArchiveDir f root layer.digest).dir then
    match ← Os.mkdirTemp (layerArchiveDir f root layer.digest).dir layerPattern with
    | none => return none
    | some name => do
      let tmp := (layerArchiveDir f root layer.digest).dir ++ [name]
      match ← writeLayerArchive f (tmp ++ [layerIndexName]) (tmp ++ [layerContentsName]) layer.mediaType readBody with
      | none => do
        let _ ← Os.removeAll tmp
        return none
      | some body => do
        let r ← publishArchive f root layer tmp body
        let _ ← Os.removeAll tmp
        return r
  else return none

/-- `prepareLayerArchiveFromBlob`: the archive of a cached blob, which is removed then. -/
def prepareLayerArchiveFromBlob (layer : Descriptor) : Host Bool := do
  if ← cachedLayerArchiveAvailable f root layer then return true
  else
    match ← Os.readFile (blobPath f root layer.digest) with
    | none => return false
    | some blob =>
      match ← writeLayerArchiveAtomic f root layer (return some blob) with
      | none => return false
      | some _ => do
        let _ ← Os.remove (blobPath f root layer.digest)
        return true

/-- `prepareStargzLayerFromBlob`: whether the blob is an eStargz layer, once its overlay index is there. -/
def prepareStargzLayerFromBlob (layer : Descriptor) : Host (Except Failure Bool) := do
  if ← cachedStargzLayerAvailable f root layer then return .ok true
  else
    match ← Os.readFile (blobPath f root layer.digest) with
    | none => return .error .failed
    | some blob =>
      match f.stargzIndex blob with
      | .ordinary => return .ok false
      | .invalid => return .error .failed
      | .index ix =>
        if ← Os.mkdirAll (stargzLayerDir f root layer.digest).dir then
          match ← Os.mkdirTemp (stargzLayerDir f root layer.digest).dir stargzPattern with
          | none => return .error .failed
          | some name => do
            let tmp := (stargzLayerDir f root layer.digest).dir ++ [name]
            if ← Os.create (tmp ++ [layerIndexName]) .excl then
              let n ← Os.append (tmp ++ [layerIndexName]) ix
              if n = ix.length then
                if ← Os.rename tmp (stargzLayerDir f root layer.digest) then
                  let _ ← Os.removeAll tmp
                  return .ok true
                else
                  let known ← cachedStargzLayerAvailable f root layer
                  let _ ← Os.removeAll tmp
                  if known then return .ok true else return .error .failed
              else
                let _ ← Os.removeAll tmp
                return .error .failed
            else
              let _ ← Os.removeAll tmp
              return .error .failed
        else return .error .failed

/-- The body of a streamed layer: what is read goes to the partial file and the hash, until the decoder has enough or
fails. -/
def teeBody (p : Place) (mediaType : Text) : (fuel remaining : Nat) → (got : Bytes) → Host (Option Bytes)
  | 0, _, _ => return none
  | fuel + 1, remaining, got => do
    match ← boundedRead remaining with
    | .data b => do
      let n ← Os.append p b
      if n = b.length then
        if f.rejects mediaType (got ++ b) then return none
        else teeBody p mediaType fuel (remaining - b.length) (got ++ b)
      else return none
    | .eof => return some got
    | .failed _ => return none

/-- The deferred removal of an archive that was not validated. -/
def discardArchive (layer : Descriptor) (failure : Failure) : Host (Except Failure Unit) := do
  let _ ← Os.removeAll (layerArchiveDir f root layer.digest)
  return .error failure

/-- The checks of `downloadAndPrepareLayer` once the archive of the streamed bytes is in its place. -/
def validateStreamed (layer : Descriptor) (body : Bytes) : Host (Except Failure Unit) := do
  if ← Os.close (partialPath f root layer.digest) then
    match ← Os.stat (partialPath f root layer.digest) with
    | .regular size =>
      if size ≠ layer.size then do
        let _ ← Os.removeAll (layerArchiveDir f root layer.digest)
        discardArchive f root layer .incomplete
      else if equalFold (shaPrefix ++ f.sum256 body) layer.digest = false then do
        let _ ← Os.remove (partialPath f root layer.digest)
        discardArchive f root layer .failed
      else if ← Os.rename (partialPath f root layer.digest) (blobPath f root layer.digest) then
        let _ ← Os.remove (blobPath f root layer.digest)
        return .ok ()
      else return .error .failed
    | _ => discardArchive f root layer .failed
  else discardArchive f root layer .failed

/-- The failure of a stream that was not indexed: incomplete when the partial file is short of the layer. -/
def streamFailure (layer : Descriptor) : Host (Except Failure Unit) := do
  match ← Os.stat (partialPath f root layer.digest) with
  | .regular size => if size < layer.size then return .error .incomplete else return .error .failed
  | _ => return .error .failed

/-- `downloadAndPrepareLayer` from the response on. -/
def streamLayer (layer : Descriptor) (resp : Response) : Host (Except Failure Unit) := do
  if 0 < layer.size ∧ layer.size < resp.contentLength then return .error .failed
  else if ← Os.create (partialPath f root layer.digest) .trunc then
    match ← writeLayerArchiveAtomic f root layer
      (teeBody f (partialPath f root layer.digest) layer.mediaType fuel resp.contentLength.toNat []) with
    | none => streamFailure f root layer
    | some body => validateStreamed f root layer body
  else return .error .failed

/-- `downloadAndPrepareLayer` from the request on. -/
def requestLayer (layer : Descriptor) : Host (Except Failure Unit) := do
  match ← doRequest layer.digest 0 true with
  | .error e => return .error (if e.retryable then .incomplete else .failed)
  | .ok resp => streamLayer f root fuel layer resp

def downloadAndPrepareLayer (layer : Descriptor) : Host (Except Failure Unit) := do
  if ← Os.mkdirAll (blobPath f root layer.digest).dir then
    match ← Os.stat (partialPath f root layer.digest) with
    | .regular size => if 0 < size then return .error .incomplete else requestLayer f root fuel layer
    | .other => return .error .incomplete
    | _ => requestLayer f root fuel layer
  else return .error .failed

end Archives

section Reconstruct

variable (f : Formats) (root : Place) (fuel : Nat)

/-- A member of an older blob of the store. -/
structure LocalMember where
  path : Place
  offset : Int
  size : Int

structure PlannedMember where
  target : DeltaMember
  held : Option LocalMember

/-- `estargz.FooterSize`. -/
def footerSize : Int := 51

def maxRemoteStargzTOCBytes : Int := 134217728

def readRemoteBlobRange (digest : Text) (start stop total : Int) : Host (Option Bytes) := do
  match ← doByteRange digest start stop total with
  | .error _ => return none
  | .ok resp =>
    if 0 ≤ resp.contentLength ∧ resp.contentLength ≠ stop - start + 1 then return none
    else readExactly (stop - start + 1).toNat fuel []

def fetchRemoteStargzTOCDocument (layer : Descriptor) : Host (Option (List DeltaMember × Int)) := do
  if layer.size ≤ footerSize then return none
  else
    match ← readRemoteBlobRange fuel layer.digest (layer.size - footerSize) (layer.size - 1) layer.size with
    | none => return none
    | some footer =>
      match f.parseFooter footer with
      | none => return none
      | some tocOffset =>
        if tocOffset < 0 ∨ layer.size - footerSize ≤ tocOffset ∨ maxRemoteStargzTOCBytes < layer.size - tocOffset then
          return none
        else
          match ← readRemoteBlobRange fuel layer.digest tocOffset (layer.size - 1) layer.size with
          | none => return none
          | some tail => return (f.decodeTOC tail).map fun members => (members, tocOffset)

/-- `validSHA256Digest`: the digits may be of either case. -/
def validSHA256Digest (value : Text) : Bool :=
  shaPrefix.isPrefixOf value && value.length = shaPrefix.length + 64 &&
    (value.drop shaPrefix.length).all fun c => isHexDigit c || ('A' ≤ c && c ≤ 'F')

/-- `validateStargzDeltaIndex`: the members follow one another from `offset` to the end of the payload. -/
def validMembers (payloadSize : Int) : (offset : Int) → List DeltaMember → Bool
  | offset, [] => offset = payloadSize
  | offset, m :: ms => m.offset = offset && 0 < m.size && validSHA256Digest m.digest &&
      offset + m.size ≤ payloadSize && validMembers payloadSize (offset + m.size) ms

def validateStargzDeltaIndex (members : List DeltaMember) (payloadSize : Int) : Bool :=
  !members.isEmpty && validMembers payloadSize 0 members

/-- `localStargzMembers` over the entries of the directory: the first blob with a member keeps it. -/
def localMembersOf (dir : Place) (excluded : Text) : List Text → Host (List (Text × LocalMember))
  | [] => return []
  | name :: names => do
    if name = excluded ∨ partialSuffix <:+ name then localMembersOf dir excluded names
    else
      match ← Os.readFile (dir ++ [name]) with
      | none => localMembersOf dir excluded names
      | some blob =>
        match f.readTOC blob with
        | none => localMembersOf dir excluded names
        | some (members, tocOffset) => do
          let rest ← localMembersOf dir excluded names
          if validateStargzDeltaIndex members tocOffset then
            return members.map (fun m => (m.digest, ⟨dir ++ [name], m.offset, m.size⟩)) ++ rest
          else return rest

def localStargzMembers (excludeDigest : Text) : Host (Option (List (Text × LocalMember))) := do
  match ← Os.readDir (root ++ [blobsName]) with
  | .absent => return some []
  | .failed => return none
  | .entries names => do
    let found ← localMembersOf f (root ++ [blobsName]) (digestToFileName f excludeDigest) names
    return some found

def planMember (available : List (Text × LocalMember)) (m : DeltaMember) : PlannedMember :=
  match available.lookup m.digest with
  | some l => if l.size = m.size then ⟨m, some l⟩ else ⟨m, none⟩
  | none => ⟨m, none⟩

def copyFileRange (p : Place) (target : DeltaMember) (l : LocalMember) : Host Bool := do
  match ← Os.readFile l.path with
  | none => return false
  | some blob =>
    let data := (blob.drop l.offset.toNat).take target.size.toNat
    let n ← Os.writeAt p target.offset data
    return n = data.length && n = target.size

/-- The body of a range, written from `start + written` on. -/
def copyRange (p : Place) (start : Int) (size : Nat) : (fuel written : Nat) → Host Bool
  | 0, _ => return false
  | fuel + 1, written => do
    if size < written then return false
    else
      match ← Net.body (size + 1 - written) with
      | .data b => do
        let n ← Os.writeAt p (start + written) (b.take (size + 1 - written))
        if n = (b.take (size + 1 - written)).length then copyRange p start size fuel (written + n) else return false
      | .eof => return written = size
      | .failed _ => return false

def copyRemoteBlobRange (layer : Descriptor) (p : Place) (start stop : Int) : Host (Except RangeError Unit) := do
  match ← doByteRange layer.digest start (stop - 1) layer.size with
  | .error e => return .error e
  | .ok resp =>
    if 0 ≤ resp.contentLength ∧ resp.contentLength ≠ stop - start then return .error .failed
    else if ← copyRange p start (stop - start).toNat fuel 0 then return .ok ()
    else return .error .failed

/-- The end of the range that starts with missing members: as far as they follow one another. -/
def rangeEnd : (stop : Int) → List PlannedMember → Int × List PlannedMember
  | stop, [] => (stop, [])
  | stop, m :: ms => match m.held with
    | none => if m.target.offset = stop then rangeEnd (stop + m.target.size) ms else (stop, m :: ms)
    | some _ => (stop, m :: ms)

/-- The loop over the planned members, of which at most `steps` are left. -/
def assemble (layer : Descriptor) (p : Place) : (steps : Nat) → List PlannedMember → Host (Except RangeError Unit)
  | _, [] => return .ok ()
  | 0, _ :: _ => return .error .failed
  | steps + 1, m :: ms => match m.held with
    | some l => do
      if ← copyFileRange p m.target l then assemble layer p steps ms else return .error .failed
    | none => do
      let r := rangeEnd (m.target.offset + m.target.size) ms
      match ← copyRemoteBlobRange fuel layer p m.target.offset r.1 with
      | .ok () => assemble layer p steps r.2
      | .error e => return .error e

/-- The assembled file, once its digest is right, becomes the blob. -/
def publishAssembled (layer : Descriptor) : Host (Except Failure Bool) := do
  if ← Os.close (deltaPath f root layer.digest) then
    match ← Os.readFile (deltaPath f root layer.digest) with
    | none => return .error .failed
    | some blob =>
      if equalFold (shaPrefix ++ f.sum256 blob) layer.digest then
        if ← Os.rename (deltaPath f root layer.digest) (blobPath f root layer.digest) then return .ok true
        else return .error .failed
      else return .ok false
  else return .error .failed

/-- `tryReconstructStargzLayer` with its file open; `false` falls back to the full download. -/
def assembleBlob (layer : Descriptor) (planned : List PlannedMember) : Host (Except Failure Bool) := do
  if ← Os.truncate (deltaPath f root layer.digest) layer.size then
    match ← assemble fuel layer (deltaPath f root layer.digest) planned.length planned with
    | .ok () => publishAssembled f root layer
    | .error .unsupported => return .ok false
    | .error .failed => return .error .failed
  else return .error .failed

/-- `tryReconstructStargzLayer` from its file on: what was not completed is removed. -/
def reconstruct (layer : Descriptor) (planned : List PlannedMember) : Host (Except Failure Bool) := do
  if ← Os.mkdirAll (blobPath f root layer.digest).dir then
    if ← Os.create (deltaPath f root layer.digest) .trunc then
      match ← assembleBlob f root fuel layer planned with
      | .ok true => return .ok true
      | r => do
        let _ ← Os.remove (deltaPath f root layer.digest)
        return r
    else return .error .failed
  else return .error .failed

def tryReconstructStargzLayer (layer : Descriptor) : Host (Except Failure Bool) := do
  match ← fetchRemoteStargzTOCDocument f fuel layer with
  | none => return .ok false
  | some (members, tocOffset) =>
    if validateStargzDeltaIndex members tocOffset then
      match ← localStargzMembers f root layer.digest with
      | none => return .error .failed
      | some available =>
        if (members.map (planMember available)).all (fun m => m.held.isNone) then return .ok false
        else
          reconstruct f root fuel layer
            (members.map (planMember available) ++ [⟨⟨[], tocOffset, layer.size - tocOffset⟩, none⟩])
    else return .ok false

end Reconstruct

end CrumbleCracker.Oci

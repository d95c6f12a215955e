import MinC.Vfs.Device

/-!
Reading from a descriptor.

`vfsRead` hands a read on to what the descriptor is open on. Most of the devices
tell how many bytes there are, but a socket whose other end is gone says that
the read is done without storing a count, and a count that was there before is
found again. Sockets wait in a loop until there is something to read; `turns`
bounds how often they are looked at.
-/

namespace MinC.Vfs

open MinC.Win

/-- What a read leaves: its error, unless it is done, the count that it stores,
if it does, and the bytes that went from the stream into the buffer. -/
structure ReadReply where
  error : Option UInt32
  count : Option UInt32
  bytes : List UInt8
  deriving DecidableEq

/-- What comes from a device that always stores a count. -/
structure Delivery where
  error : Option UInt32
  bytes : List UInt8
  deriving DecidableEq

def Delivery.reply (delivery : Delivery) : ReadReply :=
  ⟨delivery.error, some (UInt32.ofNat delivery.bytes.length), delivery.bytes⟩

/-- What is behind the descriptors, in a state that reading changes. Of a call
that fails the error is told. No more is delivered than was asked for. -/
structure ReadDevices (σ : Type*) where
  readFile : UInt32 → σ → Delivery × σ
  inputRead : UInt32 → σ → Delivery × σ
  randRead : UInt32 → σ → Delivery × σ
  pipeFionread : σ → Option UInt32 × σ
  ws2Poll : σ → Except UInt32 Bool × σ
  sockSelect : σ → Option UInt32 × σ
  procPoll : σ → Option UInt32 × σ
  readFile_le : ∀ size s, (readFile size s).1.bytes.length ≤ size.toNat
  inputRead_le : ∀ size s, (inputRead size s).1.bytes.length ≤ size.toNat
  randRead_le : ∀ size s, (randRead size s).1.bytes.length ≤ size.toNat

namespace ReadDevices

variable {σ : Type*} (d : ReadDevices σ)

/-! ### The devices -/

def refused (error : UInt32) : ReadReply := ⟨some error, none, []⟩

def file (size : UInt32) (s : σ) : ReadReply × σ :=
  ((d.readFile size s).1.reply, (d.readFile size s).2)

def console (size : UInt32) (s : σ) : ReadReply × σ :=
  ((d.inputRead size s).1.reply, (d.inputRead size s).2)

def random (size : UInt32) (s : σ) : ReadReply × σ :=
  ((d.randRead size s).1.reply, (d.randRead size s).2)

/-- The end of a pipe is no error. -/
def fifoRead (size : UInt32) (s : σ) : ReadReply × σ :=
  let reply := (d.file size s).1
  ({ reply with
      error :=
        if reply.error = some errorBrokenPipe then none
        else if reply.error = some errorNoData then some errorMoreData
        else reply.error },
    (d.file size s).2)

/-- Wait until there is something to read. What is asked tells whether there is,
or how the read ends without it. -/
def awaitRead (ask : σ → Except ReadReply Bool × σ) (size : UInt32) :
    Nat → σ → Option (ReadReply × σ)
  | 0, _ => none
  | turns + 1, s =>
      match ask s with
      | (.error reply, s) => some (reply, s)
      | (.ok true, s) => some (d.fifoRead size s)
      | (.ok false, s) =>
          match d.sockSelect s with
          | (some error, s) => some (refused error, s)
          | (none, s) =>
              match d.procPoll s with
              | (some error, s) => some (refused error, s)
              | (none, s) => awaitRead ask size turns s

/-- If the other end is gone, the read is done, but no count is stored. -/
def sockAsk (s : σ) : Except ReadReply Bool × σ :=
  match d.pipeFionread s with
  | (none, s) => (.error ⟨none, none, []⟩, s)
  | (some n, s) => (.ok (n ≠ 0), s)

def ws2Ask (s : σ) : Except ReadReply Bool × σ :=
  match d.ws2Poll s with
  | (.error error, s) => (.error (refused error), s)
  | (.ok ready, s) => (.ok ready, s)

def sockRead (turns : Nat) (size : UInt32) (s : σ) : Option (ReadReply × σ) :=
  d.awaitRead d.sockAsk size turns s

def ws2Read (turns : Nat) (size : UInt32) (s : σ) : Option (ReadReply × σ) :=
  d.awaitRead d.ws2Ask size turns s

def mailRead (size : UInt32) (s : σ) : ReadReply × σ := d.file size s

def pipeRead (turns : Nat) (node : WinVnode) (size : UInt32) (s : σ) : Option (ReadReply × σ) :=
  match node.fileType with
  | .vchr => some (d.file size s)
  | .vsock => d.sockRead turns size s
  | .vfifo => some (d.fifoRead size s)
  | _ => some (refused errorBadFileType, s)

def charRead (node : WinVnode) (size : UInt32) (s : σ) : ReadReply × σ :=
  if node.deviceType = devTypeConsole ∨ node.deviceType = devTypePty then d.console size s
  else if node.deviceType = devTypeInput ∨ node.deviceType = devTypeNull then d.file size s
  else (refused errorBadDevice, s)

def pdoRead (device : WinDevice) (size : UInt32) (s : σ) : ReadReply × σ :=
  if device.deviceType = devTypePty ∨ device.deviceType = devTypeConsole then d.console size s
  else if device.deviceType = devTypeRoute then (⟨some errorNotSupported, some 0, []⟩, s)
  else if device.deviceType = devTypeRandom ∨ device.deviceType = devTypeUrandom then
    d.random size s
  else (refused errorBadDevice, s)

end ReadDevices

/-- `none` is a read that still waits. -/
def vfsRead {σ : Type*} (d : ReadDevices σ) (devices : UInt32 → WinDevice) (turns : Nat)
    (node : WinVnode) (size : UInt32) (s : σ) : Option (ReadReply × σ) :=
  match node.fsType with
  | .disk => some (d.file size s)
  | .winsock => d.ws2Read turns size s
  | .pipe => d.pipeRead turns node size s
  | .mailslot => some (d.mailRead size s)
  | .char => some (d.charRead node size s)
  | .pdo => some (d.pdoRead (devices node.deviceId) size s)
  | _ => some (ReadDevices.refused errorBadFileType, s)

/-! ### What a read may tell -/

/-- A count that is stored is that of the bytes, and there are no bytes without
a count. -/
structure ReadReply.Sound (reply : ReadReply) (size : UInt32) : Prop where
  counted : ∀ n, reply.count = some n → n.toNat = reply.bytes.length
  silent : reply.count = none → reply.bytes = []
  le : reply.bytes.length ≤ size.toNat

theorem Delivery.sound {delivery : Delivery} {size : UInt32}
    (h : delivery.bytes.length ≤ size.toNat) : delivery.reply.Sound size where
  counted := fun n hn => by
    have hlt := UInt32.toNat_lt size
    cases hn
    exact UInt32.toNat_ofNat_of_lt' (Nat.lt_of_le_of_lt h hlt)
  silent := fun hnone => absurd hnone (Option.some_ne_none _)
  le := h

/-- A read that tells nothing is sound, whatever its error. -/
theorem ReadReply.sound_nil {error count : Option UInt32} (hcount : ∀ n, count = some n → n = 0)
    (size : UInt32) : (ReadReply.mk error count []).Sound size where
  counted := fun n hn => congrArg UInt32.toNat (hcount n hn)
  silent := fun _ => rfl
  le := Nat.zero_le _

namespace ReadDevices

variable {σ : Type*} (d : ReadDevices σ) (size : UInt32) (s : σ)

theorem sound_refused (error : UInt32) : (refused error).Sound size :=
  ReadReply.sound_nil (fun _ hn => absurd hn.symm (Option.some_ne_none _)) size

theorem sound_file : (d.file size s).1.Sound size := Delivery.sound (d.readFile_le size s)

theorem sound_console : (d.console size s).1.Sound size := Delivery.sound (d.inputRead_le size s)

theorem sound_random : (d.random size s).1.Sound size := Delivery.sound (d.randRead_le size s)

theorem sound_fifoRead : (d.fifoRead size s).1.Sound size := by
  obtain ⟨hcounted, hsilent, hle⟩ := d.sound_file size s
  exact ⟨hcounted, hsilent, hle⟩

theorem sound_awaitRead {ask : σ → Except ReadReply Bool × σ}
    (hask : ∀ s reply, (ask s).1 = .error reply → reply.Sound size) {turns : Nat} {s : σ}
    {out : ReadReply × σ} (h : d.awaitRead ask size turns s = some out) : out.1.Sound size := by
  induction turns generalizing s with
  | zero => cases h
  | succ turns ih =>
      rw [awaitRead] at h
      split at h
      · rename_i reply s' heq
        cases h
        exact hask s reply (congrArg Prod.fst heq)
      · cases h
        exact d.sound_fifoRead size _
      · split at h
        · cases h
          exact sound_refused size _
        · split at h
          · cases h
            exact sound_refused size _
          · exact ih h

theorem sound_sockAsk (s : σ) (reply : ReadReply) (h : (d.sockAsk s).1 = .error reply) :
    reply.Sound size := by
  rw [sockAsk] at h
  split at h
  · cases h
    exact ReadReply.sound_nil (fun _ hn => absurd hn.symm (Option.some_ne_none _)) size
  · cases h

theorem sound_ws2Ask (s : σ) (reply : ReadReply) (h : (d.ws2Ask s).1 = .error reply) :
    reply.Sound size := by
  rw [ws2Ask] at h
  split at h
  · cases h
    exact sound_refused size _
  · cases h

theorem sound_pipeRead {turns : Nat} {node : WinVnode} {out : ReadReply × σ}
    (h : d.pipeRead turns node size s = some out) : out.1.Sound size := by
  rw [pipeRead] at h
  split at h
  · cases h
    exact d.sound_file size s
  · exact d.sound_awaitRead size (d.sound_sockAsk size) h
  · cases h
    exact d.sound_fifoRead size s
  · cases h
    exact sound_refused size _

theorem sound_charRead (node : WinVnode) : (d.charRead node size s).1.Sound size := by
  rw [charRead]
  split_ifs
  · exact d.sound_console size s
  · exact d.sound_file size s
  · exact sound_refused size _

theorem sound_pdoRead (device : WinDevice) : (d.pdoRead device size s).1.Sound size := by
  rw [pdoRead]
  split_ifs
  · exact d.sound_console size s
  · exact ReadReply.sound_nil (fun n hn => (Option.some.inj hn).symm) size
  · exact d.sound_random size s
  · exact sound_refused size _

end ReadDevices

/-- Whatever a descriptor is open on, its reads are sound. -/
theorem vfsRead_sound {σ : Type*} {d : ReadDevices σ} {devices : UInt32 → WinDevice} {turns : Nat}
    {node : WinVnode} {size : UInt32} {s : σ} {out : ReadReply × σ}
    (h : vfsRead d devices turns node size s = some out) : out.1.Sound size := by
  rw [vfsRead] at h
  split at h
  · cases h
    exact d.sound_file size s
  · exact d.sound_awaitRead size (d.sound_ws2Ask size) h
  · exact d.sound_pipeRead size s h
  · cases h
    exact d.sound_file size s
  · cases h
    exact d.sound_charRead size s node
  · cases h
    exact d.sound_pdoRead size s _
  · cases h
    exact ReadDevices.sound_refused size _

end MinC.Vfs

import SshPanelVpn.ShadowLink.Client

/-! Which stream a frame is for, and the bytes that a sequence of frames carries for a stream. -/
namespace SshPanelVpn.ShadowLink

open Octets

def RelayAction.stream : RelayAction → UInt32
  | .writeStream id _ | .connect id _ _ | .closeStream id => id

/-- `relayLoop` acts on stream `id` for this frame. -/
def Frame.names (f : Frame) (id : UInt32) : Prop :=
  ∃ action, relaySwitch f = .act action ∧ action.stream = id

def Frame.opens (f : Frame) (id : UInt32) : Prop :=
  ∃ network addr, relaySwitch f = .act (.connect id network addr)

def Frame.closes (f : Frame) (id : UInt32) : Prop := relaySwitch f = .act (.closeStream id)

/-- What a frame carries for stream `id`. -/
def Frame.dataOf (id : UInt32) (f : Frame) : Bytes :=
  match readSwitch f with
  | .act action => if action.stream = id then action.data else []
  | _ => []

def dataFor (id : UInt32) (frames : List Frame) : Bytes := frames.flatMap (Frame.dataOf id)

/-- A stream is opened before anything else is said about it, and once. -/
def OpensFirst (frames : List Frame) : Prop :=
  frames.Pairwise fun g f => ∀ id, f.opens id → ¬ g.names id

variable {f g : Frame} {fs gs : List Frame} {id id' : UInt32} {data network addr : Bytes}

@[simp] theorem dataFor_nil : dataFor id [] = [] := rfl

@[simp] theorem dataFor_snoc : dataFor id (fs ++ [f]) = dataFor id fs ++ f.dataOf id := by
  simp [dataFor]

theorem dataFor_mono (h : fs <+: gs) : dataFor id fs <+: dataFor id gs := by
  obtain ⟨rest, rfl⟩ := h
  exact ⟨dataFor id rest, by simp [dataFor]⟩

theorem Frame.opens.names (h : f.opens id) : f.names id := by
  obtain ⟨network, addr, h⟩ := h
  exact ⟨_, h, rfl⟩

theorem Frame.closes.names (h : f.closes id) : f.names id := ⟨_, h, rfl⟩

theorem Frame.opens_unique (h : f.opens id) (h' : f.names id') : id' = id := by
  obtain ⟨network, addr, h⟩ := h
  obtain ⟨action, h', rfl⟩ := h'
  rw [h, Turn.act.injEq] at h'
  rw [← h']
  rfl

/-- Both loops read the same bytes out of a data frame. -/
theorem readSwitch_of_writeStream (h : relaySwitch f = .act (.writeStream id data)) :
    readSwitch f = .act ⟨id, data⟩ := by
  unfold relaySwitch at h
  by_cases hd : f.type = frameData
  · rw [if_pos hd, handleDataFrame] at h
    by_cases hlen : f.payload.length < 4
    · simp [hlen] at h
    · rw [if_neg hlen, Turn.act.injEq, RelayAction.writeStream.injEq] at h
      rw [readSwitch, if_pos hd, if_neg hlen, h.1, h.2]
  · rw [if_neg hd] at h
    split at h
    · unfold handleControlFrame at h
      split at h
      · cases h
      · split at h <;> cases h
    · split at h
      · cases h
      · split at h
        · split at h <;> cases h
        · cases h

theorem writeStream_of_readSwitch {a : ClientAction} (h : readSwitch f = .act a) :
    relaySwitch f = .act (.writeStream a.stream a.data) := by
  unfold readSwitch at h
  by_cases hd : f.type = frameData
  · rw [if_pos hd] at h
    by_cases hlen : f.payload.length < 4
    · simp [hlen] at h
    · rw [if_neg hlen, Turn.act.injEq] at h
      rw [relaySwitch, if_pos hd, handleDataFrame, if_neg hlen, ← h]
  · rw [if_neg hd] at h
    split at h
    · cases h
    · split at h <;> cases h

theorem dataOf_of_writeStream (h : relaySwitch f = .act (.writeStream id data)) :
    f.dataOf id' = if id = id' then data else [] := by
  simp only [Frame.dataOf, readSwitch_of_writeStream h]

theorem dataOf_of_not_writeStream (h : ∀ data, relaySwitch f ≠ .act (.writeStream id data)) :
    f.dataOf id = [] := by
  unfold Frame.dataOf
  cases hr : readSwitch f with
  | act a =>
    have hne : a.stream ≠ id := by
      rintro rfl
      exact h _ (writeStream_of_readSwitch hr)
    simp [hne]
  | skip => rfl
  | stop => rfl

theorem dataOf_of_not_names (h : ¬ f.names id) : f.dataOf id = [] :=
  dataOf_of_not_writeStream fun _ hw => h ⟨_, hw, rfl⟩

theorem dataFor_of_not_names (h : ∀ f ∈ fs, ¬ f.names id) : dataFor id fs = [] := by
  simp only [dataFor, List.flatMap_eq_nil_iff]
  intro f hf
  exact dataOf_of_not_names (h f hf)

theorem opensFirst_snoc : OpensFirst (fs ++ [f]) ↔
    OpensFirst fs ∧ ∀ id, f.opens id → ∀ g ∈ fs, ¬ g.names id := by
  simp only [OpensFirst, List.pairwise_append, List.pairwise_singleton, List.mem_singleton,
    forall_eq, true_and]
  exact and_congr_right fun _ => ⟨fun h id ho g hg => h g hg id ho,
    fun h g hg id ho => h id ho g hg⟩

theorem OpensFirst.mono (h : OpensFirst gs) (hp : fs <+: gs) : OpensFirst fs :=
  List.Pairwise.sublist hp.sublist h

/-! The frames that the two ends write. -/

theorem relaySwitch_data (h : f.type = frameData) : relaySwitch f = handleDataFrame f := if_pos h

theorem relaySwitch_control (h : f.type = frameControl) :
    relaySwitch f = handleControlFrame f := by
  have hd : f.type ≠ frameData := by
    rw [h]
    decide
  rw [relaySwitch, if_neg hd, if_pos h]

theorem relaySwitch_close (h : f.type = frameClose) (hlen : 4 ≤ f.payload.length) :
    relaySwitch f = .act (.closeStream (decodeStreamID (f.payload.take 4))) := by
  have hd : f.type ≠ frameData ∧ f.type ≠ frameControl ∧ f.type ≠ frameKeepalive := by
    rw [h]
    decide
  rw [relaySwitch, if_neg hd.1, if_neg hd.2.1, if_neg hd.2.2, if_pos h, if_pos hlen]

/-- A payload that begins with a stream id. -/
theorem payload_streamID (id : UInt32) (data : Bytes) : ¬ (encodeStreamID id ++ data).length < 4 ∧
    decodeStreamID ((encodeStreamID id ++ data).take 4) = id ∧ (encodeStreamID id ++ data).drop 4 = data := by
  refine ⟨by simp, ?_, List.drop_left' (length_encodeStreamID id)⟩
  rw [List.take_left' (length_encodeStreamID id)]
  simpa using decodeStreamID_encodeStreamID id []

theorem relaySwitch_newDataFrame :
    relaySwitch (newDataFrame (encodeStreamID id ++ data)) = .act (.writeStream id data) := by
  obtain ⟨hlen, hid, hdata⟩ := payload_streamID id data
  rw [relaySwitch_data rfl, handleDataFrame]
  simp only [newDataFrame, hlen, if_false, hid, hdata]

theorem dropWhile_ne_separator (network addr : Bytes) :
    ∃ rest, (network ++ connectSeparator :: addr).dropWhile (· != connectSeparator) =
      connectSeparator :: rest := by
  induction network with
  | nil => exact ⟨addr, by simp⟩
  | cons b network ih =>
    by_cases hb : b = connectSeparator
    · exact ⟨network ++ connectSeparator :: addr, by simp [hb]⟩
    · simpa [hb] using ih

theorem TunnelStream.controlFrame_opens (s : TunnelStream) : s.controlFrame.opens s.id := by
  obtain ⟨rest, hrest⟩ := dropWhile_ne_separator s.network s.addr
  obtain ⟨hlen, hid, hdrop⟩ := payload_streamID s.id (s.network ++ connectSeparator :: s.addr)
  refine ⟨(s.network ++ connectSeparator :: s.addr).takeWhile (· != connectSeparator), rest, ?_⟩
  rw [relaySwitch_control rfl, handleControlFrame]
  simp only [controlFrame, newControlFrame, hlen, if_false, hid, hdrop, splitConnectInfo, hrest]

theorem TunnelStream.relaySwitch_dataFrame (s : TunnelStream) (p : Bytes) :
    relaySwitch (s.dataFrame p) = .act (.writeStream s.id p) := relaySwitch_newDataFrame

theorem TunnelStream.closeFrame_closes (s : TunnelStream) : s.closeFrame.closes s.id := by
  have hid : decodeStreamID ((encodeStreamID s.id).take 4) = s.id := by
    simpa [List.take_of_length_le] using decodeStreamID_encodeStreamID s.id []
  have hlen : 4 ≤ s.closeFrame.payload.length := by simp [closeFrame]
  rw [Frame.closes, relaySwitch_close rfl hlen]
  simp only [closeFrame, hid]

theorem relaySwitch_keepalive : relaySwitch ⟨frameKeepalive, data⟩ = .skip := rfl

theorem relaySwitch_newCloseFrame : relaySwitch newCloseFrame = .stop := rfl

end SshPanelVpn.ShadowLink

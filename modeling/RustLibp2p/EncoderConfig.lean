import RustLibp2p.ParamStore

/-! The encoder configuration of the three video streams. A client sends it in the words of the control
protocol; C code keeps the numbers and codes of the media SDK for each channel, from which the
configuration that a client asks for is put together again. -/

variable {config : EncoderConfig} {outcome : SetOutcome}

namespace RustLibp2p.Camera
open Option

structure EncoderConfig where
  outputDataType : String
  width : UInt32
  height : UInt32
  rcMode : String
  rcQuality : String
  gop : UInt32
  gopMode : String
  maxRate : UInt32
  dstFrameRateNum : UInt32
  dstFrameRateDen : UInt32
  h264Profile : String
  smart : String
  rotation : UInt32
  deriving DecidableEq

def rejectIf (fails : Prop) [Decidable fails] (message : String) : Except String Unit :=
  if fails then .error message else .ok ()

def validateEncoderConfig (config : EncoderConfig) : Except String Unit := do
  rejectIf (config.width < 320 ∨ 4096 < config.width) ("width " ++ toString config.width ++ " out of range 320-4096")
  rejectIf (config.height < 240 ∨ 2160 < config.height)
    ("height " ++ toString config.height ++ " out of range 240-2160")
  rejectIf (config.maxRate = 0 ∨ 16384 < config.maxRate)
    ("max_rate " ++ toString config.maxRate ++ " out of range 1-16384")
  rejectIf (config.dstFrameRateNum = 0 ∨ 30 < config.dstFrameRateNum)
    ("dst_frame_rate_num " ++ toString config.dstFrameRateNum ++ " out of range 1-30")
  rejectIf (config.dstFrameRateDen = 0) "dst_frame_rate_den must be positive"
  rejectIf (config.gop = 0 ∨ 400 < config.gop) ("gop " ++ toString config.gop ++ " out of range 1-400")
  rejectIf (config.outputDataType ∉ ["H.264", "H.265"]) ("invalid output_data_type: " ++ config.outputDataType)
  rejectIf (config.rcMode ∉ ["CBR", "VBR"]) ("invalid rc_mode: " ++ config.rcMode)
  rejectIf (config.rcQuality ∉ ["lowest", "lower", "low", "medium", "high", "higher", "highest"])
    ("invalid rc_quality: " ++ config.rcQuality)
  rejectIf (config.gopMode ∉ ["normalP", "smartP"]) ("invalid gop_mode: " ++ config.gopMode)
  rejectIf (config.h264Profile ∉ ["high", "main", "baseline"]) ("invalid h264_profile: " ++ config.h264Profile)
  rejectIf (config.smart ∉ ["open", "close"]) ("invalid smart: " ++ config.smart)
  rejectIf (config.rotation ∉ ([0, 90, 180, 270] : List UInt32)) ("invalid rotation: " ++ toString config.rotation)

theorem of_rejectIf_bind {fails : Prop} [Decidable fails] {msg : String} {next : Unit → Except String Unit}
    (hok : (rejectIf fails msg >>= next) = .ok ()) : ¬ fails ∧ next () = .ok () := by
  unfold rejectIf at hok
  split_ifs at hok with hf
  · cases hok
  · exact ⟨hf, hok⟩

/-- What is known of a configuration that passed the check. -/
structure EncoderConfig.Accepted (config : EncoderConfig) : Prop where
  width : 320 ≤ config.width ∧ config.width ≤ 4096
  height : 240 ≤ config.height ∧ config.height ≤ 2160
  maxRate : config.maxRate ≠ 0 ∧ config.maxRate ≤ 16384
  dstFrameRateNum : config.dstFrameRateNum ≠ 0 ∧ config.dstFrameRateNum ≤ 30
  dstFrameRateDen : config.dstFrameRateDen ≠ 0
  gop : config.gop ≠ 0 ∧ config.gop ≤ 400
  outputDataType : config.outputDataType ∈ ["H.264", "H.265"]
  rcMode : config.rcMode ∈ ["CBR", "VBR"]
  rcQuality : config.rcQuality ∈ ["lowest", "lower", "low", "medium", "high", "higher", "highest"]
  gopMode : config.gopMode ∈ ["normalP", "smartP"]
  h264Profile : config.h264Profile ∈ ["high", "main", "baseline"]

variable {config : EncoderConfig} {value : UInt32}

theorem accepted_of_validate (hv : validateEncoderConfig config = .ok ()) : config.Accepted := by
  obtain ⟨hw, hv⟩ := of_rejectIf_bind hv
  obtain ⟨hh, hv⟩ := of_rejectIf_bind hv
  obtain ⟨hr, hv⟩ := of_rejectIf_bind hv
  obtain ⟨hn, hv⟩ := of_rejectIf_bind hv
  obtain ⟨hd, hv⟩ := of_rejectIf_bind hv
  obtain ⟨hg, hv⟩ := of_rejectIf_bind hv
  obtain ⟨hc, hv⟩ := of_rejectIf_bind hv
  obtain ⟨hm, hv⟩ := of_rejectIf_bind hv
  obtain ⟨hq, hv⟩ := of_rejectIf_bind hv
  obtain ⟨hgoM, hv⟩ := of_rejectIf_bind hv
  obtain ⟨hp, -⟩ := of_rejectIf_bind hv
  simp only [not_or, UInt32.not_lt] at hw hh hr hn hg
  exact ⟨hw, hh, hr, hn, hd, hg, not_not.1 hc, not_not.1 hm, not_not.1 hq, not_not.1 hgoM, not_not.1 hp⟩

inductive RkVideoId where
  | avc
  | hevc
  deriving DecidableEq

inductive VencRcMode where
  | h264Cbr
  | h264Vbr
  | h265Cbr
  | h265Vbr
  deriving DecidableEq

inductive VencGopMode where
  | normalP
  | smartP
  deriving DecidableEq

inductive Mirror where
  | none
  | horizontal
  | vertical
  | both
  deriving DecidableEq

def getCodecType (codecStr : String) : RkVideoId :=
  if codecStr = "H264" ∨ codecStr = "h264" ∨ codecStr = "H.264" ∨ codecStr = "h.264" then .avc else .hevc

def getRcMode (rcStr : String) (codec : RkVideoId) : VencRcMode :=
  match codec with
  | .avc => if rcStr = "VBR" then .h264Vbr else .h264Cbr
  | .hevc => if rcStr = "VBR" then .h265Vbr else .h265Cbr

def VencRcMode.isVbr (mode : VencRcMode) : Bool := mode == .h264Vbr || mode == .h265Vbr

def getRcQuality (qStr : String) : Int32 :=
  if qStr = "highest" then 6
  else if qStr = "higher" then 5
  else if qStr = "high" then 4
  else if qStr = "medium" then 3
  else if qStr = "low" then 2
  else if qStr = "lower" then 1
  else if qStr = "lowest" then 0
  else -1

def getProfile (pStr : String) : Int32 :=
  if pStr = "high" then 100
  else if pStr = "main" then 77
  else if pStr = "baseline" then 66
  else 0

def getGopMode (gStr : String) : VencGopMode := if gStr = "smartP" then .smartP else .normalP

/-- The parameters of one channel that the C code keeps. -/
structure ChnEncAttr where
  width : Int32
  height : Int32
  dstFpsNum : Int32
  dstFpsDen : Int32
  bitrateKbps : Int32
  gop : Int32
  codec : RkVideoId
  rcMode : VencRcMode
  rcQuality : Int32
  gopMode : VencGopMode
  profile : Int32
  mirror : Mirror
  smartpViridrlen : Int32
  streamBufCnt : Int32

/-- The arguments of a channel update, strings and numbers as they cross to C. -/
structure ChnParams where
  codec : String
  width : Int32
  height : Int32
  dstFpsNum : Int32
  dstFpsDen : Int32
  bitrateKbps : Int32
  rcMode : String
  rcQuality : String
  gop : Int32
  gopMode : String
  h264Profile : String

/-- A number that is given replaces the old one if it is positive. -/
def positiveOr (value old : Int32) : Int32 := if 0 < value then value else old

/-- A string that is given replaces the old code unless it is empty. -/
def givenOr {α : Type} (text : String) (code old : α) : α := if text = "" then old else code

def ChnEncAttr.update (old : ChnEncAttr) (params : ChnParams) : ChnEncAttr :=
  let codec := givenOr params.codec (getCodecType params.codec) old.codec
  { width := positiveOr params.width old.width
    height := positiveOr params.height old.height
    dstFpsNum := positiveOr params.dstFpsNum old.dstFpsNum
    dstFpsDen := positiveOr params.dstFpsDen old.dstFpsDen
    bitrateKbps := positiveOr params.bitrateKbps old.bitrateKbps
    gop := positiveOr params.gop old.gop
    codec := codec
    rcMode := givenOr params.rcMode (getRcMode params.rcMode codec) old.rcMode
    rcQuality := givenOr params.rcQuality (getRcQuality params.rcQuality) old.rcQuality
    gopMode := givenOr params.gopMode (getGopMode params.gopMode) old.gopMode
    profile := if codec = .avc then givenOr params.h264Profile (getProfile params.h264Profile) old.profile else 0
    mirror := old.mirror
    smartpViridrlen := old.smartpViridrlen
    streamBufCnt := positiveOr old.streamBufCnt 2 }

/-- The attributes of an encoder channel of the SDK. The union of the rate control attributes is laid out the same for
all codecs and modes, so its fields stand here once. -/
structure VencChnAttr where
  enType : RkVideoId
  picWidth : Int32
  picHeight : Int32
  profile : Int32
  streamBufCnt : Int32
  bufSize : Int32
  mirror : Mirror
  rcMode : VencRcMode
  gop : Int32
  srcFrameRateNum : Int32
  srcFrameRateDen : Int32
  dstFrameRateNum : Int32
  dstFrameRateDen : Int32
  bitRate : Int32
  maxBitRate : Int32
  minBitRate : Int32
  gopMode : VencGopMode
  virIdrLen : Int32

/-- Calls to the SDK, all for one channel. -/
inductive MpiCall where
  | stopRecvFrame
  | destroyChn
  | createChn (attr : VencChnAttr)
  | getChnAttr
  | setChnAttr (attr : VencChnAttr)
  | getRcParam
  | setRcParam (codec : RkVideoId) (minQp : Int32)
  | startRecvFrame

/-- What the SDK answers during one channel update. Zero is success. -/
structure MpiAnswers where
  createChn : Int32
  startRecvFrame : Int32
  getChnAttr : Int32
  chnAttr : VencChnAttr
  setChnAttr : Int32

/-- Rate control, frame rates and GOP of the channel's record, written over attributes of the SDK. -/
def VencChnAttr.withRates (st : VencChnAttr) (attr : ChnEncAttr) (sensorFps : Int32) : VencChnAttr :=
  { st with
    rcMode := attr.rcMode
    gop := attr.gop
    srcFrameRateNum := positiveOr sensorFps attr.dstFpsNum
    srcFrameRateDen := 1
    dstFrameRateNum := attr.dstFpsNum
    dstFrameRateDen := positiveOr attr.dstFpsDen 1
    bitRate := attr.bitrateKbps
    maxBitRate := if attr.rcMode.isVbr then attr.bitrateKbps * 3 / 2 else st.maxBitRate
    minBitRate := if attr.rcMode.isVbr then attr.bitrateKbps / 2 else st.minBitRate
    gopMode := attr.gopMode
    virIdrLen := attr.smartpViridrlen }

/-- The quality sets the lower bound of the quantiser. -/
def rcParamCalls (attr : ChnEncAttr) : List MpiCall :=
  if 0 ≤ attr.rcQuality then [.getRcParam, .setRcParam attr.codec (40 - attr.rcQuality * 5)] else []

def vencInitSingle (attr : ChnEncAttr) (sensorFps : Int32) (mpi : MpiAnswers) : Int32 × List MpiCall :=
  let blank : VencChnAttr :=
    { enType := attr.codec
      picWidth := attr.width
      picHeight := attr.height
      profile := attr.profile
      streamBufCnt := attr.streamBufCnt
      bufSize := attr.width * attr.height * 3 / 2
      mirror := attr.mirror
      rcMode := attr.rcMode
      gop := 0
      srcFrameRateNum := 0
      srcFrameRateDen := 0
      dstFrameRateNum := 0
      dstFrameRateDen := 0
      bitRate := 0
      maxBitRate := 0
      minBitRate := 0
      gopMode := attr.gopMode
      virIdrLen := 0 }
  let create := MpiCall.createChn (blank.withRates attr sensorFps)
  if mpi.createChn = 0 then (mpi.startRecvFrame, create :: rcParamCalls attr ++ [.startRecvFrame])
  else (mpi.createChn, [create])

/-- The part of an update that talks to the SDK: `attr` is the new record. -/
def applyAttr (attr : ChnEncAttr) (needRebuild : Bool) (sensorFps : Int32) (mpi : MpiAnswers) : Int32 × List MpiCall :=
  let rebuilt := vencInitSingle attr sensorFps mpi
  if needRebuild then (rebuilt.1, [.stopRecvFrame, .destroyChn] ++ rebuilt.2)
  else if mpi.getChnAttr ≠ 0 then (rebuilt.1, [.stopRecvFrame, .getChnAttr, .destroyChn] ++ rebuilt.2)
  else
    let set := MpiCall.setChnAttr (mpi.chnAttr.withRates attr sensorFps)
    if mpi.setChnAttr ≠ 0 then (rebuilt.1, [.stopRecvFrame, .getChnAttr, set, .destroyChn] ++ rebuilt.2)
    else (0, [.stopRecvFrame, .getChnAttr, set] ++ rcParamCalls attr ++ [.startRecvFrame])

def vencMaxChn : Nat := 3

/-- The state of the C code. -/
structure Encoders where
  enabled : Fin vencMaxChn → Bool
  attr : Fin vencMaxChn → ChnEncAttr
  sensorFps : Int32

def chnIndex (chnId : Int32) : Option (Fin vencMaxChn) :=
  if hrange : 0 ≤ chnId.toInt ∧ chnId.toInt < vencMaxChn then some ⟨chnId.toInt.toNat, by omega⟩ else none

structure ChnReport where
  codec : String
  width : Int32
  height : Int32
  dstFpsNum : Int32
  dstFpsDen : Int32
  bitrateKbps : Int32
  gop : Int32
  rcMode : String
  rcQuality : String
  gopMode : String
  h264Profile : String
  smart : String
  rotation : Int32

def rcQStr : List String := ["lowest", "lower", "low", "medium", "high", "higher", "highest"]

/-- A quality that was not set is reported as the fifth of seven. -/
def rcQualityText (quality : Int32) : String :=
  let index : Int := if quality < 0 then 4 else if 6 < quality then 6 else quality.toInt
  rcQStr.getD index.toNat ""

def ChnEncAttr.report (attr : ChnEncAttr) : ChnReport :=
  { codec := if attr.codec = .avc then "H.264" else "H.265"
    width := attr.width
    height := attr.height
    dstFpsNum := positiveOr attr.dstFpsNum 1
    dstFpsDen := positiveOr attr.dstFpsDen 1
    bitrateKbps := attr.bitrateKbps
    gop := attr.gop
    rcMode := if attr.rcMode.isVbr then "VBR" else "CBR"
    rcQuality := rcQualityText attr.rcQuality
    gopMode := if attr.gopMode = .smartP then "smartP" else "normalP"
    h264Profile :=
      if attr.codec = .avc then
        if attr.profile = 100 then "high" else if attr.profile = 0 then "main" else "baseline"
      else "high"
    smart := "close"
    rotation := 0 }

/-- The report in the words of the control protocol. -/
def ChnReport.toEncoderConfig (report : ChnReport) : EncoderConfig :=
  { outputDataType := report.codec
    width := report.width.toUInt32
    height := report.height.toUInt32
    rcMode := report.rcMode
    rcQuality := report.rcQuality
    gop := report.gop.toUInt32
    gopMode := report.gopMode
    maxRate := report.bitrateKbps.toUInt32
    dstFrameRateNum := report.dstFpsNum.toUInt32
    dstFrameRateDen := report.dstFpsDen.toUInt32
    h264Profile := report.h264Profile
    smart := report.smart
    rotation := report.rotation.toUInt32 }

namespace Encoders

section

variable (encoders : Encoders)

def setAttr (chn : Fin vencMaxChn) (attr : ChnEncAttr) : Encoders :=
  { encoders with attr := Function.update encoders.attr chn attr }

def rkCameraUpdateChnConfig (chnId : Int32) (params : ChnParams) (mpi : MpiAnswers) :
    Int32 × List MpiCall × Encoders :=
  match chnIndex chnId with
  | none => (-1, [], encoders)
  | some chn =>
    if encoders.enabled chn then
      let old := encoders.attr chn
      let new := old.update params
      let needRebuild := new.codec != old.codec || new.width != old.width || new.height != old.height
      let applied := applyAttr new needRebuild (positiveOr encoders.sensorFps 30) mpi
      (applied.1, applied.2, encoders.setAttr chn new)
    else (-1, [], encoders)

def rkVideoGetConfig (chnId : Int32) : Option ChnReport :=
  match chnIndex chnId with
  | none => none
  | some chn => if encoders.enabled chn then some (encoders.attr chn).report else none

def getEncoderConfig (chnId : UInt32) : Option EncoderConfig :=
  (encoders.rkVideoGetConfig chnId.toInt32).map ChnReport.toEncoderConfig

end
end Encoders

open Encoders

/-- The device: the state of the C code and the parameter store. -/
structure EncoderHost where
  encoders : Encoders
  params : ParamFile

/-- A text on its way to C, empty if it has no C form. -/
def cStringOrDefault (text : String) : String := if (CText.cStringNew text).isSome then text else ""

def EncoderConfig.toChnParams (config : EncoderConfig) : ChnParams :=
  { codec := cStringOrDefault config.outputDataType
    width := config.width.toInt32
    height := config.height.toInt32
    dstFpsNum := config.dstFrameRateNum.toInt32
    dstFpsDen := config.dstFrameRateDen.toInt32
    bitrateKbps := config.maxRate.toInt32
    rcMode := cStringOrDefault config.rcMode
    rcQuality := cStringOrDefault config.rcQuality
    gop := config.gop.toInt32
    gopMode := cStringOrDefault config.gopMode
    h264Profile := cStringOrDefault config.h264Profile }

/-- What the outside decides about one request; the thread of an update that is waited for may be
cancelled. -/
structure SetEnv where
  writable : Bool
  mpi : MpiAnswers
  cancelled : Bool

/-- What a request leaves behind: its result, and the update that is still to run in the background. -/
structure SetOutcome where
  result : Except String Unit
  background : Option (Int32 × ChnParams)
  host : EncoderHost

namespace EncoderHost

/-- Write the configuration to the parameter store. `none` is a panic. -/
def persist (params : ParamFile) (stream : String) (config : EncoderConfig) (writable : Bool) : Option ParamFile := do
  let params ← params.paramSetString (stream ++ "." ++ "output_data_type") config.outputDataType writable
  let params ← params.paramSetInt (stream ++ "." ++ "width") config.width.toInt32 writable
  let params ← params.paramSetInt (stream ++ "." ++ "height") config.height.toInt32 writable
  let params ← params.paramSetString (stream ++ "." ++ "rc_mode") config.rcMode writable
  let params ← params.paramSetString (stream ++ "." ++ "rc_quality") config.rcQuality writable
  let params ← params.paramSetInt (stream ++ "." ++ "gop") config.gop.toInt32 writable
  let params ← params.paramSetString (stream ++ "." ++ "gop_mode") config.gopMode writable
  let params ← params.paramSetInt (stream ++ "." ++ "max_rate") config.maxRate.toInt32 writable
  let params ← params.paramSetInt (stream ++ "." ++ "dst_frame_rate_num") config.dstFrameRateNum.toInt32 writable
  let params ← params.paramSetInt (stream ++ "." ++ "dst_frame_rate_den") config.dstFrameRateDen.toInt32 writable
  let params ← params.paramSetString (stream ++ "." ++ "h264_profile") config.h264Profile writable
  let params ← params.paramSetString (stream ++ "." ++ "smart") config.smart writable
  params.paramSetInt (stream ++ "." ++ "rotation") config.rotation.toInt32 writable

def streamPrefix (chnId : UInt32) : Option String :=
  if chnId = 0 then some "video.0"
  else if chnId = 1 then some "video.1"
  else if chnId = 2 then some "video.2"
  else none

section

variable (host : EncoderHost) (chnId : UInt32) (config : EncoderConfig)

/-- The codec or the picture size changes, so that the channel has to be built anew. -/
def needRebuild : Bool :=
  match host.encoders.getEncoderConfig chnId with
  | some old => old.outputDataType != config.outputDataType || old.width != config.width || old.height != config.height
  | none => false

def setEncoderConfig (env : SetEnv) :
    Option SetOutcome :=
  match streamPrefix chnId with
  | none => some ⟨.error ("invalid chn_id: " ++ toString chnId), none, host⟩
  | some stream => do
    let rebuild := host.needRebuild chnId config
    let params ← persist host.params stream config env.writable
    let host := { host with params }
    if rebuild then
      some ⟨.ok (), some (chnId.toInt32, config.toChnParams), host⟩
    else if env.cancelled then
      some ⟨.error "hot-update thread cancelled (panic?)", none, host⟩
    else
      let (ret, _, encoders) := host.encoders.rkCameraUpdateChnConfig chnId.toInt32 config.toChnParams env.mpi
      let result := if ret = 0 then .ok () else .error ("rk_camera_update_chn_config failed: " ++ toString ret)
      some ⟨result, none, { host with encoders }⟩

end
end EncoderHost

open EncoderHost

/-- The device once an update that was left to the background has run. -/
def SetOutcome.settled (outcome : SetOutcome) (mpi : MpiAnswers) : EncoderHost :=
  match outcome.background with
  | some (chnId, params) =>
    { outcome.host with
      encoders := (outcome.host.encoders.rkCameraUpdateChnConfig chnId params mpi).2.2 }
  | none => outcome.host

theorem toInt32_pos_iff (value : UInt32) : 0 < value.toInt32 ↔ value ≠ 0 ∧ value.toNat < 2 ^ 31 := by
  have hlt := value.toNat_lt
  have hi : value.toInt32.toInt =
      if 2 * value.toNat < 2 ^ 32 then (value.toNat : Int) else (value.toNat : Int) - (2 ^ 32 : Nat) := by
    rw [← Int32.toInt_toBitVec, UInt32.toBitVec_toInt32, BitVec.toInt_eq_toNat_cond]
    rfl
  rw [Int32.lt_iff_toInt_lt, Int32.toInt_zero, hi, ne_eq, ← UInt32.toNat_inj, UInt32.toNat_zero]
  split_ifs <;> omega

theorem toUInt32_positiveOr (hpos : 0 < value.toInt32) (old : Int32) :
    (positiveOr value.toInt32 old).toUInt32 = value := by
  rw [positiveOr, if_pos hpos, UInt32.toUInt32_toInt32]

theorem toUInt32_positiveOr_positiveOr (hpos : 0 < value.toInt32) (old : Int32) :
    (positiveOr (positiveOr value.toInt32 old) 1).toUInt32 = value := by
  have hg : positiveOr value.toInt32 old = value.toInt32 := if_pos hpos
  rw [hg, toUInt32_positiveOr hpos]

theorem toUInt32_positiveOr_ne (hl : 2 ^ 31 ≤ value.toNat) (old : Int32) :
    (positiveOr (positiveOr value.toInt32 old) 1).toUInt32 ≠ value := by
  intro heq
  have hpos : 0 < positiveOr (positiveOr value.toInt32 old) 1 := by
    rw [positiveOr]
    split_ifs with hpos
    · exact hpos
    · decide
  rw [← Int32.toInt32_toUInt32 (positiveOr (positiveOr value.toInt32 old) 1), heq] at hpos
  have hs := ((toInt32_pos_iff value).1 hpos).2
  omega

theorem toInt32_pos_of_le {bound : UInt32} (hne : value ≠ 0) (hle : value ≤ bound)
    (hb : bound.toNat < 2 ^ 31) : 0 < value.toInt32 :=
  (toInt32_pos_iff value).2 ⟨hne, lt_of_le_of_lt (UInt32.le_iff_toNat_le.1 hle) hb⟩

variable {α : Type} {word : String} {words : List String}

theorem givenOr_word (hw : word ∈ words)
    (hwo : ∀ word ∈ words, cStringOrDefault word = word ∧ word ≠ "") (code : String → α) (old : α) :
    givenOr (cStringOrDefault word) (code (cStringOrDefault word)) old = code word := by
  obtain ⟨hs, hne⟩ := hwo word hw
  rw [hs, givenOr, if_neg hne]

theorem read_givenOr_word (hw : word ∈ words) (code : String → α)
    (read : α → String) (hwo : ∀ word ∈ words, cStringOrDefault word = word ∧ word ≠ "")
    (hr : ∀ word ∈ words, read (code word) = word) (old : α) :
    read (givenOr (cStringOrDefault word) (code (cStringOrDefault word)) old) = word := by
  rw [givenOr_word hw hwo]
  exact hr word hw

namespace EncoderConfig

/-- The two configurations have the same codec, picture size, rate control, GOP, bit rate and frame rate and, for the
codec that has profiles, the same profile. -/
structure Agrees (back config : EncoderConfig) : Prop where
  outputDataType : back.outputDataType = config.outputDataType
  width : back.width = config.width
  height : back.height = config.height
  rcMode : back.rcMode = config.rcMode
  rcQuality : back.rcQuality = config.rcQuality
  gop : back.gop = config.gop
  gopMode : back.gopMode = config.gopMode
  maxRate : back.maxRate = config.maxRate
  dstFrameRateNum : back.dstFrameRateNum = config.dstFrameRateNum
  dstFrameRateDen : back.dstFrameRateDen = config.dstFrameRateDen
  h264Profile : config.outputDataType = "H.264" → back.h264Profile = config.h264Profile

/-- The profile is not the main profile of H.264, and the denominator of the frame rate is an `int`. -/
structure Reportable (config : EncoderConfig) : Prop where
  profile : ¬ (config.outputDataType = "H.264" ∧ config.h264Profile = "main")
  denominator : config.dstFrameRateDen.toNat < 2 ^ 31

end EncoderConfig

section Update

variable (hacc : config.Accepted) (old : ChnEncAttr)

include hacc

theorem codec_update : (old.update config.toChnParams).codec = getCodecType config.outputDataType :=
  givenOr_word hacc.outputDataType (by decide +kernel) getCodecType old.codec

theorem outputDataType_report : (old.update config.toChnParams).report.codec = config.outputDataType := by
  exact read_givenOr_word hacc.outputDataType getCodecType (fun codec => if codec = .avc then "H.264" else "H.265")
    (by decide +kernel) (by decide) old.codec

theorem rcMode_report : (old.update config.toChnParams).report.rcMode = config.rcMode := by
  have hall : ∀ codec, ∀ word ∈ ["CBR", "VBR"], (if (getRcMode word codec).isVbr then "VBR" else "CBR") = word := by
    intro codec
    cases codec <;> decide
  exact read_givenOr_word hacc.rcMode (fun word => getRcMode word (old.update config.toChnParams).codec)
    (fun mode => if mode.isVbr then "VBR" else "CBR") (by decide +kernel) (hall _) old.rcMode

theorem rcQuality_report : (old.update config.toChnParams).report.rcQuality = config.rcQuality := by
  exact read_givenOr_word hacc.rcQuality getRcQuality rcQualityText (by decide +kernel) (by decide) old.rcQuality

theorem gopMode_report : (old.update config.toChnParams).report.gopMode = config.gopMode := by
  exact read_givenOr_word hacc.gopMode getGopMode (fun mode => if mode = .smartP then "smartP" else "normalP")
    (by decide +kernel) (by decide) old.gopMode

theorem h264Profile_report (hc : config.outputDataType = "H.264") :
    (old.update config.toChnParams).report.h264Profile =
      if config.h264Profile = "main" then "baseline" else config.h264Profile := by
  have hall : ∀ word ∈ ["high", "main", "baseline"],
      (if getProfile word = 100 then "high" else if getProfile word = 0 then "main" else "baseline") =
        if word = "main" then "baseline" else word := by decide
  have ha : (old.update config.toChnParams).codec = .avc := by
    rw [codec_update hacc, hc]
    decide
  have hp : (old.update config.toChnParams).profile = getProfile config.h264Profile := by
    rw [← givenOr_word hacc.h264Profile (by decide +kernel) getProfile old.profile]
    exact if_pos ha
  calc (old.update config.toChnParams).report.h264Profile = if (old.update config.toChnParams).profile = 100 then "high"
          else if (old.update config.toChnParams).profile = 0 then "main" else "baseline" := if_pos ha
    _ = if config.h264Profile = "main" then "baseline" else config.h264Profile := by
        rw [hp]
        exact hall _ hacc.h264Profile

theorem agrees_report_update_iff :
    ((old.update config.toChnParams).report.toEncoderConfig).Agrees config ↔ config.Reportable := by
  have hn := toInt32_pos_of_le hacc.dstFrameRateNum.1 hacc.dstFrameRateNum.2 (by decide)
  constructor
  · intro ha
    constructor
    · rintro ⟨hc, hm⟩
      have hp := (h264Profile_report hacc old hc).symm.trans (ha.h264Profile hc)
      rw [if_pos hm, hm] at hp
      exact absurd hp (by decide)
    · by_contra hl
      exact toUInt32_positiveOr_ne (Nat.not_lt.1 hl) old.dstFpsDen ha.dstFrameRateDen
  · rintro ⟨hp, hd⟩
    have hd := (toInt32_pos_iff config.dstFrameRateDen).2 ⟨hacc.dstFrameRateDen, hd⟩
    have hw : config.width ≠ 0 := by
      intro hz
      exact absurd (hz ▸ hacc.width.1) (by decide)
    have hh : config.height ≠ 0 := by
      intro hz
      exact absurd (hz ▸ hacc.height.1) (by decide)
    refine ⟨outputDataType_report hacc old, ?_, ?_, rcMode_report hacc old, rcQuality_report hacc old,
      ?_, gopMode_report hacc old, ?_, ?_, ?_, ?_⟩
    · exact toUInt32_positiveOr (toInt32_pos_of_le hw hacc.width.2 (by decide)) _
    · exact toUInt32_positiveOr (toInt32_pos_of_le hh hacc.height.2 (by decide)) _
    · exact toUInt32_positiveOr (toInt32_pos_of_le hacc.gop.1 hacc.gop.2 (by decide)) _
    · exact toUInt32_positiveOr (toInt32_pos_of_le hacc.maxRate.1 hacc.maxRate.2 (by decide)) _
    · exact toUInt32_positiveOr_positiveOr hn _
    · exact toUInt32_positiveOr_positiveOr hd _
    · intro hc
      exact (h264Profile_report hacc old hc).trans (if_neg fun hm => hp ⟨hc, hm⟩)

end Update

namespace Encoders

section

variable (encoders : Encoders) (chn : Fin vencMaxChn) (attr : ChnEncAttr)

@[simp] theorem enabled_setAttr :
    (encoders.setAttr chn attr).enabled = encoders.enabled := rfl

@[simp] theorem attr_setAttr :
    (encoders.setAttr chn attr).attr chn = attr := by
  simp [setAttr]

end

variable {encoders : Encoders} {chnId : Int32} {chn : Fin vencMaxChn}

theorem rkCameraUpdateChnConfig_of_enabled
    (hc : chnIndex chnId = some chn) (he : encoders.enabled chn) (params : ChnParams) (mpi : MpiAnswers) :
    (encoders.rkCameraUpdateChnConfig chnId params mpi).2.2 =
      encoders.setAttr chn ((encoders.attr chn).update params) := by
  simp [rkCameraUpdateChnConfig, hc, he]

theorem enabled_of_rkCameraUpdateChnConfig {params : ChnParams}
    {mpi : MpiAnswers} (hr : (encoders.rkCameraUpdateChnConfig chnId params mpi).1 = 0) :
    ∃ chn, chnIndex chnId = some chn ∧ encoders.enabled chn := by
  have hf : (-1 : Int32) ≠ 0 := by decide
  cases hc : chnIndex chnId with
  | none => exact absurd (by simpa only [rkCameraUpdateChnConfig, hc] using hr) hf
  | some chn =>
    by_cases he : encoders.enabled chn
    · exact ⟨chn, rfl, he⟩
    · exact absurd (by simpa only [rkCameraUpdateChnConfig, hc, if_neg he] using hr) hf

variable {chnId : UInt32}

theorem enabled_of_getEncoderConfig (hc : encoders.getEncoderConfig chnId = some config) :
    ∃ chn, chnIndex chnId.toInt32 = some chn ∧ encoders.enabled chn := by
  obtain ⟨_, hr, -⟩ := map_eq_some_iff.1 hc
  cases hch : chnIndex chnId.toInt32 with
  | none => simp [rkVideoGetConfig, hch] at hr
  | some chn =>
    by_cases he : encoders.enabled chn
    · exact ⟨chn, rfl, he⟩
    · simp [rkVideoGetConfig, hch, he] at hr

end Encoders

variable {host : EncoderHost} {chnId : UInt32}

theorem EncoderHost.enabled_of_needRebuild (hr : host.needRebuild chnId config) :
    ∃ chn, chnIndex chnId.toInt32 = some chn ∧ host.encoders.enabled chn := by
  cases ho : host.encoders.getEncoderConfig chnId with
  | none => simp [needRebuild, ho] at hr
  | some => exact enabled_of_getEncoderConfig ho

theorem settled_of_setEncoderConfig {env : SetEnv}
    (hs : host.setEncoderConfig chnId config env = some outcome) (hok : outcome.result = .ok ()) (mpi : MpiAnswers) :
    ∃ chn, chnIndex chnId.toInt32 = some chn ∧ host.encoders.enabled chn ∧
      (outcome.settled mpi).encoders =
        host.encoders.setAttr chn ((host.encoders.attr chn).update config.toChnParams) := by
  cases hst : streamPrefix chnId with
  | none =>
    simp only [setEncoderConfig, hst, Option.some.injEq] at hs
    rw [← hs] at hok
    cases hok
  | some =>
    simp only [setEncoderConfig, hst, bind_eq_bind, bind_eq_some_iff] at hs
    obtain ⟨_, -, hs⟩ := hs
    by_cases hr : host.needRebuild chnId config
    · -- the update is left to the background
      rw [if_pos hr] at hs
      obtain ⟨chn, hc, he⟩ := enabled_of_needRebuild hr
      refine ⟨chn, hc, he, ?_⟩
      rw [← Option.some.inj hs]
      exact rkCameraUpdateChnConfig_of_enabled hc he _ mpi
    · rw [if_neg hr] at hs
      split_ifs at hs with hca hre
      · rw [← Option.some.inj hs] at hok
        cases hok
      · obtain ⟨chn, hc, he⟩ := enabled_of_rkCameraUpdateChnConfig hre
        refine ⟨chn, hc, he, ?_⟩
        rw [← Option.some.inj hs]
        exact rkCameraUpdateChnConfig_of_enabled hc he _ env.mpi
      · rw [← Option.some.inj hs] at hok
        cases hok

/-- For every state of the device, every channel and every configuration that passes the check, when a request has
succeeded and its update has run: the configuration is reported back if it does not ask for the main profile of H.264
and the denominator of its frame rate is less than `2 ^ 31`, and only then. -/
theorem getEncoderConfig_setEncoderConfig_iff {host : EncoderHost} {chnId : UInt32} {config : EncoderConfig}
    (hvalid : validateEncoderConfig config = .ok ()) {env : SetEnv} {outcome : SetOutcome}
    (hset : host.setEncoderConfig chnId config env = some outcome) (hok : outcome.result = .ok ()) (mpi : MpiAnswers) :
    (∃ back, (outcome.settled mpi).encoders.getEncoderConfig chnId = some back ∧ back.Agrees config) ↔
      config.Reportable := by
  obtain ⟨chn, hc, he, hs⟩ := settled_of_setEncoderConfig hset hok mpi
  have hb : (outcome.settled mpi).encoders.getEncoderConfig chnId =
      some ((host.encoders.attr chn).update config.toChnParams).report.toEncoderConfig := by
    simp [hs, getEncoderConfig, rkVideoGetConfig, hc, he]
  rw [hb, ← agrees_report_update_iff (accepted_of_validate hvalid) (host.encoders.attr chn)]
  constructor
  · rintro ⟨_, heq, ha⟩
    rwa [Option.some.inj heq]
  · intro ha
    exact ⟨_, rfl, ha⟩

/-- A device with one stream in use, as it is configured when it is new. -/
def oneStream : EncoderHost where
  encoders :=
    { enabled := fun chn => chn.val = 0
      attr := fun _ =>
        { width := 1920, height := 1080, dstFpsNum := 25, dstFpsDen := 1, bitrateKbps := 2048, gop := 50
          codec := .hevc, rcMode := .h265Cbr, rcQuality := 4, gopMode := .normalP, profile := 0
          mirror := .none, smartpViridrlen := 25, streamBufCnt := 2 }
      sensorFps := 30 }
  params := ⟨none⟩

def h264Config (profile : String) : EncoderConfig where
  outputDataType := "H.264"
  width := 1280
  height := 720
  rcMode := "VBR"
  rcQuality := "higher"
  gop := 60
  gopMode := "smartP"
  maxRate := 1024
  dstFrameRateNum := 15
  dstFrameRateDen := 1
  h264Profile := profile
  smart := "close"
  rotation := 0

def willingMpi : MpiAnswers where
  createChn := 0
  startRecvFrame := 0
  getChnAttr := 0
  chnAttr :=
    { enType := .hevc, picWidth := 1920, picHeight := 1080, profile := 0, streamBufCnt := 2, bufSize := 3110400
      mirror := .none, rcMode := .h265Cbr, gop := 50, srcFrameRateNum := 30, srcFrameRateDen := 1
      dstFrameRateNum := 25, dstFrameRateDen := 1, bitRate := 2048, maxBitRate := 0, minBitRate := 0
      gopMode := .normalP, virIdrLen := 25 }
  setChnAttr := 0

/-- The stream is switched to H.264 with the high profile. -/
theorem getEncoderConfig_setEncoderConfig_high :
    ∃ outcome, oneStream.setEncoderConfig 0 (h264Config "high") ⟨true, willingMpi, false⟩ = some outcome ∧
      outcome.result = .ok () ∧
      ∃ back, (outcome.settled willingMpi).encoders.getEncoderConfig 0 = some back ∧
        back.Agrees (h264Config "high") := by
  have hr : (oneStream.setEncoderConfig 0 (h264Config "high") ⟨true, willingMpi, false⟩).map
      SetOutcome.result = some (.ok ()) := by decide +kernel
  obtain ⟨outcome, hs, hok⟩ := map_eq_some_iff.1 hr
  refine ⟨outcome, hs, hok, ?_⟩
  apply (getEncoderConfig_setEncoderConfig_iff (by decide +kernel) hs hok willingMpi).2
  exact ⟨by decide, by decide⟩

/-- With the main profile, the baseline profile is reported back. -/
theorem not_reported_main : validateEncoderConfig (h264Config "main") = .ok () ∧
    (∃ outcome, oneStream.setEncoderConfig 0 (h264Config "main") ⟨true, willingMpi, false⟩ = some outcome ∧
      outcome.result = .ok () ∧
      (outcome.settled willingMpi).encoders.getEncoderConfig 0 = some (h264Config "baseline")) ∧
    ¬ (h264Config "baseline").Agrees (h264Config "main") := by
  refine ⟨by decide +kernel, ?_, ?_⟩
  · have hrun : (oneStream.setEncoderConfig 0 (h264Config "main") ⟨true, willingMpi, false⟩).map
        (fun outcome => (outcome.result, (outcome.settled willingMpi).encoders.getEncoderConfig 0)) =
        some (.ok (), some (h264Config "baseline")) := by decide +kernel
    obtain ⟨outcome, hs, hp⟩ := map_eq_some_iff.1 hrun
    obtain ⟨hok, hb⟩ := Prod.mk.inj hp
    exact ⟨outcome, hs, hok, hb⟩
  · intro ha
    exact absurd (ha.h264Profile rfl) (by decide)

end RustLibp2p.Camera

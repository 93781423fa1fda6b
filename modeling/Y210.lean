import Y210.Run
import Y210.Records
import Y210.CString
import Y210.AudioDrivers
import Y210.AudioHardware
import Y210.AudioStreams
import Y210.AudioRouting
import Y210.AudioCalls
import Y210.AudioMute
import Y210.AudioRpcFailure
import Y210.AudioPins
import Y210.AudioPostProc
import Y210.AudioPolicy
import Y210.AudioVolume
import Y210.AudioCapture
import Y210.CameraParameters
import Y210.CameraWrapper
import Y210.CameraRelease
import Y210.CameraPreview
import Y210.CameraCache
import Y210.CameraRecording
import Y210.CameraDelegation
import Y210.AudioDescriptors
import Y210.AudioPlayback
import Y210.AudioInput
import Y210.AudioRecording
import Y210.AudioNegotiation
import Y210.AudioPreProc
import Y210.Tokens
import Y210.AudioFilter
import Y210.AudioFilterColumns
import Y210.AudioFilterTables
import Y210.AudioFilterDriver
import Y210.FmInit
import Y210.FmServer
import Y210.FmSingleOpen
import Y210.AudioStrategy
import Y210.AudioProposal
import Y210.Nearest
import Y210.AudioSampleRate
import Y210.AudioTeardown
import Y210.AudioClosing
import Y210.TextureManager
import Y210.CameraSingleton
import Y210.Lights
import Y210.LightsTrackball
import Y210.LightsBlink
import Y210.LightsFaults
import Y210.AudioRequests
import Y210.LocalSteps
import Y210.Patches
import Y210.PatchRevert
import Y210.PatchCheck
import Y210.AudioWrite
import Y210.AudioReadBounds
import Y210.AudioFilterFile
import Y210.AudioFilterLast
import Y210.Preference
import Y210.SoundEndpoints
import Y210.AudioTtyVolume
import Y210.CameraRoundTrip
import Y210.Graphics
import Y210.GraphicsPixels
import Y210.Java
import Y210.DataConnection
import Y210.HuaweiQualcommRIL
import Y210.IccRequests
import Y210.WifiSupplicant
import Y210.WlanTool
import Y210.WlanDriver
import Y210.WlanAgreement
import Y210.RunLength
import Y210.RecoveryFont
import Y210.FmNatives
import Y210.CameraProxy
import Y210.CameraLibrary
import Y210.AudioFm
import Y210.AudioListening
import Y210.AudioPinSharing

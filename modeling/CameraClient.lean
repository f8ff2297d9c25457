import CameraClient.Lib.Runs
import CameraClient.Lib.Pipeline
import CameraClient.Lib.Parts
import CameraClient.Lib.Strips
import CameraClient.Api
import CameraClient.WheelView
import CameraClient.Activity
import CameraClient.StatusParts
import CameraClient.StatusEffect
import CameraClient.Panel
import CameraClient.PartialStatus
import CameraClient.Statuses
import CameraClient.WheelIndex
import CameraClient.WheelPosts
import CameraClient.MjpegView
import CameraClient.App
import CameraClient.TouchFocus
import CameraClient.RoundTrip
import CameraClient.Liveview
import CameraClient.Requests
import CameraClient.Capture
import CameraClient.LastSelection
import CameraClient.Results
import CameraClient.CaptureButton
import CameraClient.Agreement
import CameraClient.AtRest
import CameraClient.Channels
import CameraClient.Failures
import CameraClient.Quiescence
import CameraClient.Lib.StateError
import CameraClient.Lib.MarkedStream
import CameraClient.Lib.Properties
import CameraClient.Lib.Scan
import CameraClient.MjpegStream
import CameraClient.FrameStream
import CameraClient.NativeStream
import CameraClient.Lib.Detents
import CameraClient.WheelStrip
import CameraClient.WheelScroller
import CameraClient.WheelTouch
import CameraClient.WheelRest
import CameraClient.WheelGesture
import CameraClient.WheelReplay
import CameraClient.Lib.Slices
import CameraClient.WheelItems
import CameraClient.WheelRows
import CameraClient.WheelRange
import CameraClient.WheelDraw
import CameraClient.WheelFrame
import CameraClient.WheelScreen
import CameraClient.HuffmanTables
import CameraClient.ImageProc

import RtcCall.Session.LoginIntent
import RtcCall.Session.LoginNotice
import RtcCall.Session.RegistrationPhase
import RtcCall.Session.OneOperation
import RtcCall.Session.CallContext
import RtcCall.Session.Forks
import RtcCall.Session.Deferred
import RtcCall.Session.HangUp
import RtcCall.Call.Call
import RtcCall.Call.Descriptions
import RtcCall.Call.Ends
import RtcCall.Call.Candidates
import RtcCall.Call.OfferReplies
import RtcCall.Session.Conversion
import RtcCall.Call.Messages
import RtcCall.Call.Sinks
import RtcCall.Session.RportCycle
import RtcCall.Session.StackTeardown
import RtcCall.Call.Components
import RtcCall.Session.OwnerThread
import RtcCall.Session.StackTasks
import RtcCall.Session.Invoke
import RtcCall.Lib.Lifetimes
import RtcCall.Utility.Optional
import RtcCall.Call.Exchange
import RtcCall.Call.Conservation
import RtcCall.Session.Settles
import RtcCall.Session.TeardownEnds
import RtcCall.Call.Custody
import RtcCall.Session.Logout
import RtcCall.Call.Handles
import RtcCall.Render.SdlRenderer
import RtcCall.Render.Textures
import RtcCall.Render.Frames
import RtcCall.Session.Turns
import RtcCall.Session.UserCalls
import RtcCall.Session.Waits
import RtcCall.Session.PromptEnd
import RtcCall.Call.Leaks
import RtcCall.Session.Shared

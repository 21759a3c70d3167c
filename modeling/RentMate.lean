import RentMate.Machine.Word
import RentMate.Machine.Buffer
import RentMate.Machine.Run
import RentMate.Machine.Mailbox
import RentMate.Machine.Framing
import RentMate.Machine.Circular
import RentMate.Machine.StreamAead
import RentMate.Machine.BinaryPolynomial
import RentMate.Machine.PackedPolynomial
import RentMate.Machine.BinaryEuclid
import RentMate.Machine.WordVector
import RentMate.Machine.BinaryCurve
import RentMate.Machine.ProjectiveCurve
import RentMate.Machine.PrimeCertificate
import RentMate.Misc.TinyEcdh
import RentMate.Proofs.BitVectors
import RentMate.Proofs.Gf2Field
import RentMate.Proofs.Gf2Curve
import RentMate.Proofs.BaseOrder
import RentMate.Proofs.EcdhKeys
import RentMate.Proofs.KeyAgreement
import RentMate.PckData.GeneralSettings
import RentMate.PckData.RecvHolder
import RentMate.PckData.Container
import RentMate.PckData.AesGcm
import RentMate.PckData.Message
import RentMate.PckData.Session
import RentMate.PckData.Ecdh
import RentMate.MainServer.CommandQueue
import RentMate.MainServer.Commands
import RentMate.MainServer.Server
import RentMate.NodeClient.Commands
import RentMate.NodeClient.Client
import RentMate.NodeClient.Link
import RentMate.Proofs.CommandQueueFifo
import RentMate.Proofs.Reassembly
import RentMate.Proofs.StreamIndependence
import RentMate.Proofs.ReceiveSafety
import RentMate.Proofs.ConnectionIsolation
import RentMate.Proofs.ContainerCodec
import RentMate.Proofs.MessageCodec
import RentMate.Proofs.RoundTrip
import RentMate.Proofs.ContainerList
import RentMate.Machine.Growth
import RentMate.MainServer.Serving
import RentMate.MainServer.EpollThread
import RentMate.MainServer.WebSocketThread
import RentMate.Proofs.ServerSteps
import RentMate.Proofs.Registry
import RentMate.Proofs.ServerGate
import RentMate.Proofs.ConnectionTable
import RentMate.Proofs.RemoteGate
import RentMate.Proofs.SessionCodec
import RentMate.Proofs.CommandDelivery
import RentMate.Proofs.NodeMessageDelivery
import RentMate.Proofs.Handshake
import RentMate.Proofs.NodeGate
import RentMate.Proofs.KeyExchange
import RentMate.Proofs.LibraryExchange
import RentMate.Proofs.CommandReception
import RentMate.Proofs.ContainerWalks
import RentMate.Proofs.Printing
import RentMate.Proofs.MessageNumbers
import RentMate.PckData.Sending
import RentMate.Proofs.SendErrors
import RentMate.Proofs.OutgoingLengths
import RentMate.Proofs.Registration
import RentMate.Proofs.DeviceConfigFile
import RentMate.Proofs.ServerRestart
import RentMate.NodeClient.SmartLock
import RentMate.Proofs.PasscodeReport
import RentMate.Proofs.DispatchSafety
import RentMate.Network.World
import RentMate.Proofs.ReplayProtection
import RentMate.Proofs.FrameTolerance
import RentMate.MainServer.Beacon
import RentMate.Proofs.BeaconSafety
import RentMate.Machine.LineEditor
import RentMate.NodeClient.Keypad
import RentMate.Proofs.KeypadTyping
import RentMate.Proofs.PasscodeTyping
import RentMate.Machine.TimerTask
import RentMate.NodeClient.LockDevice
import RentMate.Proofs.LockTimers
import RentMate.Proofs.LockDoor
import RentMate.Proofs.LockMotor
import RentMate.Proofs.LockRest
import RentMate.Proofs.StoredPasscode
import RentMate.Machine.Records
import RentMate.Machine.Heap
import RentMate.Machine.CString
import RentMate.PckData.Settings
import RentMate.Misc.ArrayList
import RentMate.Proofs.ArrayListRefinement
import RentMate.NodeClient.CommandQueue
import RentMate.Proofs.NodeQueue
import RentMate.Proofs.SettingsFile
import RentMate.Proofs.ByteAccounting
import RentMate.Machine.PolynomialHash
import RentMate.Machine.ReflectedPolynomial
import RentMate.Misc.MbedtlsGcm
import RentMate.Proofs.GcmField
import RentMate.Proofs.GcmStream
import RentMate.Proofs.GcmMessages
import RentMate.Proofs.GcmCounter
import RentMate.Proofs.GcmForgeries

import AcOpenServer.SVFW.RoundTrip
import AcOpenServer.SVFW.Sending
import AcOpenServer.RPCN.Locality
import AcOpenServer.Crypto.UdpServer
import AcOpenServer.Crypto.RsaKey
import AcOpenServer.Services.Polling
import AcOpenServer.Auth.Gate
import AcOpenServer.Auth.MessageType
import AcOpenServer.Auth.Session
import AcOpenServer.Auth.Completeness
import AcOpenServer.Auth.Buffers
import AcOpenServer.Services.Correspondence
import AcOpenServer.Logging.Channels
import AcOpenServer.Services.Sends
import AcOpenServer.Tcp.Receive
import AcOpenServer.Udp.Channel
import AcOpenServer.Codecs
import AcOpenServer.BinaryMemory.Containment
import AcOpenServer.BinaryMemory.RoundTrip
import AcOpenServer.BinaryMemory.Stepping
import AcOpenServer.BinaryMemory.RandomAccess
import AcOpenServer.BinaryMemory.FixedText
import AcOpenServer.BinaryMemory.SubStream
import AcOpenServer.BinaryMemory.Reservations
import AcOpenServer.BinaryMemory.SectorCounts
import AcOpenServer.BinaryMemory.SpanStrings
import AcOpenServer.Auth.VersionOrder
import AcOpenServer.Fsdp.Acks
import AcOpenServer.Crypto.UdpEnvelope
import AcOpenServer.Fsdp.InitialData
import AcOpenServer.Binary.Strings
import AcOpenServer.Utilities.HexHelper
import AcOpenServer.Library.Cut
import AcOpenServer.Library.Keystream
import AcOpenServer.Library.Limbs
import AcOpenServer.Library.Mealy
import AcOpenServer.Library.Mersenne
import AcOpenServer.Library.Rijndael
import AcOpenServer.Native.Aes.AesNi
import AcOpenServer.Native.Aes.Rounds
import AcOpenServer.Native.Aes.Keyed
import AcOpenServer.Native.Cwc.Absorb
import AcOpenServer.Native.Cwc.Calls

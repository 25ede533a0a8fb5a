import ForteOpcUa.Interaction.Prog
import ForteOpcUa.Interaction.Monitor
import ForteOpcUa.Interaction.Interleaving
import ForteOpcUa.Interaction.History
import ForteOpcUa.Billboard.LastPost
import ForteOpcUa.Billboard.Independence
import ForteOpcUa.Blocks.Confirmation
import ForteOpcUa.Blocks.Handles
import ForteOpcUa.Blocks.DataPoints
import ForteOpcUa.Blocks.PublishedValue
import ForteOpcUa.Blocks.RoundTrip
import ForteOpcUa.Blocks.Growth
import ForteOpcUa.Blocks.Crossing
import ForteOpcUa.Blocks.Disappearance
import ForteOpcUa.Blocks.Buffers
import ForteOpcUa.Blocks.ReadOut
import ForteOpcUa.Store.Removal
import ForteOpcUa.Encoding.Codec
import ForteOpcUa.Encoding.Containment
import ForteOpcUa.Channels.Access
import ForteOpcUa.Channels.Cleanup
import ForteOpcUa.Channels.Identifiers
import ForteOpcUa.Channels.Misuse
import ForteOpcUa.Network.Connection
import ForteOpcUa.Network.Reassembly
import ForteOpcUa.View.Releasing
import ForteOpcUa.Repeated.OnTime
import ForteOpcUa.Repeated.Wrapping

import MeshRoofFirmware.NvmReadBounds
import MeshRoofFirmware.NvmRereads
import MeshRoofFirmware.NvmBoot
import MeshRoofFirmware.ConsoleInterleaving
import MeshRoofFirmware.WifiCommands
import MeshRoofFirmware.TcpConsole
import MeshRoofFirmware.Library.TimedLog
import MeshRoofFirmware.MeshSupervisor
import MeshRoofFirmware.Amplifier
import MeshRoofFirmware.NvmSizeCheck
import MeshRoofFirmware.NvmResave
import MeshRoofFirmware.ConsoleOutput
import MeshRoofFirmware.Credentials
import MeshRoofFirmware.WifiFailures
import MeshRoofFirmware.PingSession
import MeshRoofFirmware.UsbRendering
import MeshRoofFirmware.NvmResources
import MeshRoofFirmware.ReportAgreement
import MeshRoofFirmware.ChatCommands
import MeshRoofFirmware.DeviceSession
import MeshRoofFirmware.Startup
import MeshRoofFirmware.SharedPins
import MeshRoofFirmware.SupervisorProgress
import MeshRoofFirmware.NvmFormat
import MeshRoofFirmware.WifiReconnect
import MeshRoofFirmware.NetworkCommands
import MeshRoofFirmware.ConfigCopy
import MeshRoofFirmware.ClientService
import MeshRoofFirmware.ShellDispatch
import MeshRoofFirmware.ConsoleSessions
